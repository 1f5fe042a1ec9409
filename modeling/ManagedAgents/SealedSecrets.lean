import ManagedAgents.StoredSecrets
import ManagedAgents.MemorySystem

/-!
# Secrets at rest

With a configured key the texts under secret keys in `auth` are encrypted.  The
rest of a body is stored as it is, and a text that looks like a ciphertext is
taken for one.
-/

namespace ManagedAgents

open Fallible LabelledRuns ReadCommitted

/-! ## Ciphertexts -/

/-- What `encrypt_secret` makes of the value under the key, with some nonce. -/
def IsCiphertext (settings : EncryptionSettings) (key : List UInt8) (text : String) :
    Prop :=
  ∃ (nonce : List UInt8) (value : String), text = ENCRYPTED_PREFIX ++
    String.ofList (b64encode (nonce ++ settings.aesgcmEncrypt key nonce (utf8 value)))

mutual

/-- The text that the value is, or the texts that it lists.  Those of an object stand
under the keys of the object. -/
def Json.listedTexts : Json → List String
  | .str text => [text]
  | .list items => Json.itemTexts items
  | _ => []

def Json.itemTexts : List Json → List String
  | [] => []
  | item :: rest => item.listedTexts ++ Json.itemTexts rest

end

/-- Every text is empty or a ciphertext. -/
def Sealed (settings : EncryptionSettings) (key : List UInt8) (value : Json) : Prop :=
  ∀ text ∈ value.listedTexts, text = "" ∨ IsCiphertext settings key text

/-- A text with the prefix is a ciphertext; listed texts are not encrypted. -/
def Unforged (settings : EncryptionSettings) (key : List UInt8) : Json → Prop
  | .str text =>
      startswith text ENCRYPTED_PREFIX = true → IsCiphertext settings key text
  | value => Sealed settings key value

section

variable {settings : EncryptionSettings} {key : List UInt8}

@[simp] theorem sealed_str (text : String) :
    Sealed settings key (.str text) ↔ text = "" ∨ IsCiphertext settings key text := by
  simp [Sealed, Json.listedTexts]

theorem unforged_of_ne_str
    {value : Json} (hvalue : ∀ text, value ≠ .str text) :
    Unforged settings key value ↔ Sealed settings key value := by
  cases value with
  | str text => exact absurd rfl (hvalue text)
  | null | bool | int | float | list | dict => exact Iff.rfl

theorem Sealed.unforged
    {value : Json} (hsealed : Sealed settings key value) :
    Unforged settings key value := by
  cases value with
  | str text =>
      intro hmarked
      rcases (sealed_str text).mp hsealed with rfl | hcipher
      · have hempty : startswith "" ENCRYPTED_PREFIX = false := by decide
        rw [hempty] at hmarked
        cases hmarked
      · exact hcipher
  | null | bool | int | float | list | dict => exact hsealed

theorem sealed_null : Sealed settings key .null := by
  simp [Sealed, Json.listedTexts]

theorem sealed_blank : Sealed settings key (.str "") := (sealed_str "").mpr (.inl rfl)

end

section

variable {transform : String → Encrypting String}

mutual

/-- Only texts right under a secret key are encrypted. -/
theorem walk_listedTexts :
    ∀ (value : Json) {draw : ℕ} {encrypted : Json} {next : ℕ},
      walk transform value draw = .ok (encrypted, next) →
        encrypted.listedTexts = value.listedTexts
  | .list items, draw, encrypted, next, hwalk => by
      rw [walk] at hwalk
      obtain ⟨walked, _, hwalked, hresult⟩ := encrypting_bind_eq_ok.mp hwalk
      cases encrypting_pure_eq_ok.mp hresult
      exact walkItems_itemTexts items hwalked
  | .dict fields, draw, encrypted, next, hwalk => by
      rw [walk] at hwalk
      obtain ⟨walked, _, -, hresult⟩ := encrypting_bind_eq_ok.mp hwalk
      cases encrypting_pure_eq_ok.mp hresult
      rfl
  | .null, _, _, _, hwalk | .bool _, _, _, _, hwalk | .int _, _, _, _, hwalk
  | .float _, _, _, _, hwalk | .str _, _, _, _, hwalk => by
      rw [walk] at hwalk
      · cases encrypting_pure_eq_ok.mp hwalk
        rfl
      all_goals simp

theorem walkItems_itemTexts :
    ∀ (items : List Json) {draw : ℕ} {encrypted : List Json} {next : ℕ},
      walkItems transform items draw = .ok (encrypted, next) →
        Json.itemTexts encrypted = Json.itemTexts items
  | [], draw, encrypted, next, hwalk => by
      rw [walkItems] at hwalk
      cases encrypting_pure_eq_ok.mp hwalk
      rfl
  | item :: rest, draw, encrypted, next, hwalk => by
      rw [walkItems] at hwalk
      obtain ⟨first, _, hfirst, hwalk⟩ := encrypting_bind_eq_ok.mp hwalk
      obtain ⟨others, _, hothers, hresult⟩ := encrypting_bind_eq_ok.mp hwalk
      cases encrypting_pure_eq_ok.mp hresult
      rw [Json.itemTexts, Json.itemTexts, walk_listedTexts item hfirst,
        walkItems_itemTexts rest hothers]

end

end

mutual

theorem Json.listedTexts_equal :
    ∀ (left right : Json), Json.equal left right = true →
      left.listedTexts = right.listedTexts
  | .list items, right, hequal => by
      cases right with
      | list others => exact Json.itemTexts_equal items others hequal
      | _ => simp [Json.equal] at hequal
  | .str text, right, hequal => by
      cases right <;> simp_all [Json.equal, Json.listedTexts]
  | .null, right, hequal | .bool _, right, hequal | .int _, right, hequal
  | .float _, right, hequal | .dict _, right, hequal => by
      cases right <;> simp_all [Json.equal, Json.number, Json.listedTexts]

theorem Json.itemTexts_equal :
    ∀ (items others : List Json), Json.equalItems items others = true →
      Json.itemTexts items = Json.itemTexts others
  | [], [], _ => rfl
  | item :: rest, other :: others, hequal => by
      rw [Json.equalItems, Bool.and_eq_true] at hequal
      rw [Json.itemTexts, Json.itemTexts, Json.listedTexts_equal item other hequal.1,
        Json.itemTexts_equal rest others hequal.2]
  | [], _ :: _, hequal | _ :: _, [], hequal => by simp [Json.equalItems] at hequal

end

section

variable {settings : EncryptionSettings} {key : List UInt8}

theorem sealed_equal
    (left right : Json) (hequal : Json.equal left right = true) :
    Sealed settings key left ↔ Sealed settings key right := by
  rw [Sealed, Sealed, Json.listedTexts_equal left right hequal]

/-- Encrypting seals the unforged values and no others. -/
theorem encryptSecret_seals
    (hkey : settings.encryptionKey = .ok (some key)) (call : CredentialCall) :
    Encrypts (encryptSecret (call.cipher settings)) (Unforged settings key)
      (Sealed settings key) where
  text := by
    intro value draw encrypted next hencrypted
    unfold encryptSecret CredentialCall.cipher at hencrypted
    simp only [hkey] at hencrypted
    rw [sealed_str]
    split at hencrypted
    next hmarked =>
      cases hencrypted
      have hpresent : value ≠ "" := by
        rintro rfl
        revert hmarked
        decide
      simp [Unforged, hmarked, hpresent]
    next hmarked =>
      cases hencrypted
      refine iff_of_true (.inr ⟨call.nonce draw, value, rfl⟩) fun hstarts => ?_
      exact absurd hstarts hmarked
  other := by
    intro value draw encrypted next hvalue hwalk
    rw [unforged_of_ne_str hvalue, Sealed, Sealed, walk_listedTexts value hwalk]

end

/-! ## Purging and validating -/

section

variable {Holds : Json → Prop}

mutual

theorem purgeSecretValues_hold (hnull : Holds .null) :
    ∀ value, Json.SecretsHold Holds (purgeSecretValues value)
  | .dict fields => purgeSecretFields_hold hnull fields
  | .list items => purgeSecretItems_hold hnull items
  | .null | .bool _ | .int _ | .float _ | .str _ => by
      rw [purgeSecretValues]
      · trivial
      all_goals simp

theorem purgeSecretItems_hold (hnull : Holds .null) :
    ∀ items, Json.ItemSecretsHold Holds (purgeSecretItems items)
  | [] => trivial
  | item :: rest =>
      ⟨purgeSecretValues_hold hnull item, purgeSecretItems_hold hnull rest⟩

theorem purgeSecretFields_hold (hnull : Holds .null) :
    ∀ fields, Json.FieldSecretsHold Holds (purgeSecretFields fields)
  | [] => trivial
  | (key, child) :: rest => by
      refine ⟨?_, purgeSecretFields_hold hnull rest⟩
      by_cases hkey : isSecretKey key = true
      · simp [hkey, hnull]
      · simpa [hkey] using purgeSecretValues_hold hnull child

end

theorem purgeCredentialSecretData_secretsHold
    (py : Interpreter) (now : Time) (data : Dict) (hnull : Holds .null) :
    Dict.SecretsHold Holds (purgeCredentialSecretData py now data) := by
  have hplain : isSecretKey "secrets_purged_at" = false := isSecretKey_plain _ (by simp)
  unfold purgeCredentialSecretData
  refine Dict.forall_set ?_ ((fieldHolds_plain hplain).mpr trivial)
  exact Json.fieldSecretsHold_iff.mp (purgeSecretFields_hold hnull data)

theorem validatedCredentialData_secretsHold
    {py : Interpreter} {now : Time} {held : Resource} {vaultId : String} {data : Dict}
    (hshape : CredentialShape held.data) (hheld : Dict.SecretsHold Holds held.data)
    (hnull : Holds .null)
    (hdata : validatedCredentialData py now held vaultId = .ok data) :
    Dict.SecretsHold Holds data := by
  have hmetadata : isSecretKey "metadata" = false := isSecretKey_plain _ (by simp)
  have hvalidation : isSecretKey "last_validation" = false :=
    isSecretKey_plain _ (by simp)
  obtain ⟨metadata, validation, hgiven, rfl⟩ := validatedCredentialData_eq_ok hshape hdata
  have hfields := (hheld.get hnull "metadata").2
  rw [hgiven, Json.secretsHold_dict] at hfields
  refine Dict.forall_set hheld ((fieldHolds_plain hmetadata).mpr ?_)
  exact Json.secretsHold_dict.mpr
    (Dict.forall_set hfields ((fieldHolds_plain hvalidation).mpr trivial))

end

/-! ## Requests -/

/-- What the request has to store is empty or a ciphertext under every secret key, except
that a text in `auth` is encrypted if it does not look like a ciphertext. -/
def CredentialRequest.SealsSecrets (settings : EncryptionSettings) (key : List UInt8) :
    CredentialRequest → Prop
  | .create _ body =>
      KeptBodyHolds (Unforged settings key) (Sealed settings key) body.fields
  | .update _ _ body =>
      ∀ field ∈ body.fields,
        KeptFieldHolds (Unforged settings key) (Sealed settings key) field
  | .archive .. | .delete .. | .validate .. | .other _ => True

def CredentialsSealed (settings : EncryptionSettings) (key : List UInt8)
    (rows : List Resource) : Prop :=
  ∀ row ∈ rows, IsCredential row → Dict.SecretsHold (Sealed settings key) row.data

def CredentialsShaped (rows : List Resource) : Prop :=
  ∀ row ∈ rows, IsCredential row → CredentialShape row.data

section

variable {py : Interpreter} {settings : EncryptionSettings} {key : List UInt8}
  {call : CredentialCall} {view : View} {current next : List Resource} {held : Resource}
  {data : Dict}

theorem createdData_sealed_iff
    (hkey : settings.encryptionKey = .ok (some key)) {vaultId : String}
    {body : CredentialBody} (hrequest : call.request = .create vaultId body)
    (hdata : normalizeCredentialData py (call.cipher settings) body.fields = .ok data) :
    Dict.SecretsHold (Sealed settings key) data ↔
      call.request.SealsSecrets settings key := by
  rw [hrequest]
  exact normalizeCredentialData_secretsHold_iff body.keyed (encryptSecret_seals hkey call)
    (fun _ => Sealed.unforged) sealed_null (fun _ => sealed_blank) hdata

theorem KeptFieldHolds.patch
    {Before After : Json → Prop} {field : String × Json}
    (hfield : KeptFieldHolds Before After field) : KeptPatchHolds Before After field := by
  unfold KeptPatchHolds
  split
  · exact hfield
  next hkey =>
    rw [KeptFieldHolds, if_neg hkey] at hfield
    exact hfield.patch

/-- The new data of a sealed credential are sealed if the request seals. -/
theorem newData_sealed_iff
    (hkey : settings.encryptionKey = .ok (some key)) (hshape : CredentialShape held.data)
    (hheld : Dict.SecretsHold (Sealed settings key) held.data)
    (hdata : NewData py settings call held data) :
    Dict.SecretsHold (Sealed settings key) data ↔
      call.request.SealsSecrets settings key := by
  unfold NewData at hdata
  cases hrequest : call.request <;> simp only [hrequest] at hdata
  case update vaultId credentialId body =>
    obtain ⟨merged, hmerged, hnormal⟩ := hdata
    have hkeyed := mergeCredentialUpdate_keyed hshape.keyed body.keyed hmerged
    rw [normalizeCredentialData_secretsHold_iff hkeyed (encryptSecret_seals hkey call)
      (fun _ => Sealed.unforged) sealed_null (fun _ => sealed_blank) hnormal]
    constructor
    · exact mergeCredentialUpdate_patch hshape body.keyed (fun _ => Sealed.unforged)
        sealed_null sealed_blank hheld hmerged
    · intro hseals
      exact mergeCredentialUpdate_keptBody hshape body.keyed (fun _ => Sealed.unforged)
        sealed_null hheld (fun field hfield => (hseals field hfield).patch) hmerged
  case archive | delete =>
    subst hdata
    exact iff_of_true (purgeCredentialSecretData_secretsHold py _ _ sealed_null) trivial
  case validate =>
    exact iff_of_true (validatedCredentialData_secretsHold hshape hheld sealed_null hdata)
      trivial

theorem CredentialCall.body_shaped
    (hview : CredentialsShaped (view 0)) (hcurrent : CredentialsShaped current)
    (hbody : call.body py settings view current =
      some next) : CredentialsShaped next := by
  intro row hrow htype
  cases CredentialCall.rowChange hbody hrow htype with
  | kept hrow => exact hcurrent row hrow htype
  | created vaultId body hrequest hdata hlive =>
      exact normalizeCredentialData_shape body.keyed hdata
  | rewritten held old data hheld haddressed hcredential hold hid holdType hdata hwritten
      hmarks =>
      rcases hwritten with hwritten | ⟨-, hwritten⟩
      · rw [hwritten]
        exact newData_shape (hview held hheld hcredential) hdata
      · rw [hwritten]
        exact hcurrent old hold holdType

/-- A commit on sealed credentials, of a request that has seen sealed ones, leaves them
sealed exactly if the request seals what it stores. -/
theorem CredentialCall.body_sealed_iff
    (hkey : settings.encryptionKey = .ok (some key))
    (hshaped : CredentialsShaped (view 0)) (hkept : RowsKept (view 0) current)
    (hview : CredentialsSealed settings key (view 0))
    (hcurrent : CredentialsSealed settings key current)
    (hbody : call.body py settings view current = some next) :
    CredentialsSealed settings key next ↔ call.request.SealsSecrets settings key := by
  constructor
  · intro hnext
    cases hrequest : call.request with
    | create vaultId body =>
        obtain ⟨row, hrow, htype, hdata⟩ := createCredential_written hrequest hbody
        rw [← hrequest]
        exact (createdData_sealed_iff hkey hrequest hdata).mp (hnext row hrow htype)
    | update vaultId credentialId body =>
        obtain ⟨held, hheld, data, hcredential, hdata, hwritten⟩ :=
          updateCredential_written hrequest hkept hbody
        have hheldShape := hshaped held hheld hcredential
        have hheldSealed := hview held hheld hcredential
        rw [← hrequest]
        refine (newData_sealed_iff hkey hheldShape hheldSealed hdata).mp ?_
        rcases hwritten with hequal | ⟨row, hrow, htype, rfl⟩
        · exact ((newData_shape hheldShape hdata).keyed.secretsHold_of_equal
            hheldShape.keyed sealed_null sealed_equal hequal).mpr hheldSealed
        · exact hnext row hrow htype
    | archive | delete | validate | other => trivial
  · intro hseals row hrow htype
    cases CredentialCall.rowChange hbody hrow htype with
    | kept hrow => exact hcurrent row hrow htype
    | created vaultId body hrequest hdata hlive =>
        exact (createdData_sealed_iff hkey hrequest hdata).mpr hseals
    | rewritten held old data hheld haddressed hcredential hold hid holdType hdata
        hwritten hmarks =>
        rcases hwritten with hwritten | ⟨-, hwritten⟩
        · rw [hwritten]
          exact (newData_sealed_iff hkey (hshaped held hheld hcredential)
            (hview held hheld hcredential) hdata).mpr hseals
        · rw [hwritten]
          exact hcurrent old hold holdType

/-! ## Runs -/

/-- In a reached state whose secrets were ciphertexts so far, a request that commits
leaves them so exactly if it seals what it stores; so they are ciphertexts in all states
of a run exactly if all committed requests do. -/
theorem stored_secrets_sealed
    (hkey : settings.encryptionKey = .ok (some key)) {start : List Resource}
    (hstart : ∀ row ∈ start, ¬IsCredential row) {last : CredentialWorld}
    {calls : List (CredentialCall × List ℕ)}
    (hrun : run (credentialStep py settings) { current := start, past := [] } calls =
      some last) :
    ((∀ state ∈ last.history, CredentialsSealed settings key state) ↔
      AllSteps (credentialStep py settings)
        (OnCommit (CredentialCall.body py settings)
          fun call _ _ => call.request.SealsSecrets settings key)
        { current := start, past := [] } calls) ∧
    ((∀ state ∈ last.history, CredentialsSealed settings key state) →
      ∀ (call : CredentialCall) ages next, Admissible last ages →
        call.body py settings (last.view ages) last.current = some next →
          (CredentialsSealed settings key next ↔
            call.request.SealsSecrets settings key)) := by
  have hshaped : ∀ (call : CredentialCall) view current next,
      Reads CredentialsShaped RowsKept view current →
      call.body py settings view current = some next →
      CredentialsShaped next ∧ RowsKept current next := by
    intro call view current next hreads hbody
    obtain ⟨statements, hcommit⟩ := CredentialCall.committed hbody
    exact ⟨CredentialCall.body_shaped (hreads.views 0) hreads.invariant hbody,
      commit_kept hcommit⟩
  have hfirst : Timeline.Ordered CredentialsShaped RowsKept
      { current := start, past := [] } := by
    constructor
    · intro state hstate row hrow htype
      obtain rfl : state = start := by simpa [Timeline.history] using hstate
      exact absurd htype (hstart row hrow)
    · simp [Timeline.history]
  have hclean : ∀ state ∈ Timeline.history { current := start, past := [] },
      CredentialsSealed settings key state := by
    intro state hstate row hrow htype
    obtain rfl : state = start := by simpa [Timeline.history] using hstate
    exact absurd htype (hstart row hrow)
  constructor
  · have hiff := @run_iff _ _ (CredentialCall.body py settings) CredentialsShaped RowsKept
      (fun call _ _ => call.request.SealsSecrets settings key)
      (CredentialsSealed settings key) RowsKept.refl RowsKept.trans hshaped
      (fun _ _ _ _ hreads hviews hcurrent hbody =>
        CredentialCall.body_sealed_iff hkey (hreads.views 0) (hreads.kept 0) (hviews 0)
          hcurrent hbody)
      _ _ _ hfirst hrun
    exact hiff.trans (and_iff_right hclean)
  · intro hsealed call ages next hages hbody
    have hordered : last.Ordered CredentialsShaped RowsKept :=
      run_invariant (fun _ _ _ htimeline hstep =>
        step_ordered RowsKept.refl RowsKept.trans hshaped htimeline hstep) hfirst hrun
    have hreads := hordered.reads RowsKept.refl hages
    exact CredentialCall.body_sealed_iff hkey (hreads.views 0) (hreads.kept 0)
      (hsealed _ (Timeline.view_mem hages 0)) (hsealed _ List.mem_cons_self) hbody

end

/-! ## Sample runs -/

def sampleVault : Resource :=
  createResource (sampleSupply "v") 0 0 "wrkspc_default" .vault none none (some "keys")
    [("display_name", .str "keys")]

/-- The value of AES-256-GCM at the zero key and nonce and the text `abc`. -/
def sampleSettings : EncryptionSettings where
  encryptionKey := .ok (some (List.replicate 32 0))
  aesgcmEncrypt := fun _ _ plaintext =>
    if plaintext = utf8 "abc" then
      [175, 197, 35, 84, 16, 158, 246, 90, 47, 92, 203, 179, 240, 82, 9, 120, 20, 223, 60]
    else []

def sampleAuth : Dict :=
  [("type", .str "static_bearer"), ("mcp_server_url", .str "https://mcp.test"),
   ("token", .str "abc")]

def sampleAuthBody : CredentialBody where
  fields := [("display_name", .str "git"), ("auth", .dict sampleAuth)]
  keyed := by decide

/-- The flat form of the same secret. -/
def sampleFlatBody : CredentialBody where
  fields := [("type", .str "static_bearer"), ("token", .str "abc")]
  keyed := by decide

def sampleCredentialCall (tag : String) (request : CredentialRequest) :
    CredentialCall × List ℕ :=
  ({ workspaceId := "wrkspc_default"
     supply := sampleSupply tag
     nonce := fun _ => List.replicate 12 0
     request := request }, [])

def sampleVaultWorld : CredentialWorld :=
  { current := [sampleVault], past := [] }

def sampleStoring (body : CredentialBody) : CredentialCall × List ℕ :=
  sampleCredentialCall "c" (.create "vault_v0" body)

def sampleRenamingBody : CredentialBody where
  fields := [("display_name", .str "github")]
  keyed := by decide

def sampleSealing : List (CredentialCall × List ℕ) :=
  [sampleStoring sampleAuthBody,
   sampleCredentialCall "d" (.update "vault_v0" "cred_c0" sampleRenamingBody)]

def sampleSealedWorld : CredentialWorld :=
  (run (credentialStep sampleInterpreter sampleSettings) sampleVaultWorld
    sampleSealing).get (by decide)

def sampleClearWorld : CredentialWorld :=
  (run (credentialStep sampleInterpreter sampleSettings) sampleVaultWorld
    [sampleStoring sampleFlatBody]).get (by decide)

theorem sampleVault_not_credential :
    ∀ row ∈ [sampleVault], ¬IsCredential row := by
  intro row hrow
  obtain rfl := List.mem_singleton.mp hrow
  unfold IsCredential
  decide

theorem sampleAuthBody_seals (key : List UInt8) :
    (CredentialRequest.create "vault_v0" sampleAuthBody).SealsSecrets sampleSettings
      key := by
  have hdisplay : isSecretKey "display_name" = false := isSecretKey_plain _ (by simp)
  have htype : isSecretKey "type" = false := isSecretKey_plain _ (by simp)
  have hurl : isSecretKey "mcp_server_url" = false := isSecretKey_plain _ (by simp)
  have hmarked : startswith "abc" ENCRYPTED_PREFIX = false := by decide
  intro field hfield
  right
  rcases List.mem_cons.mp hfield with rfl | hfield
  · rw [KeptFieldHolds, if_neg (by simp)]
    exact (fieldHolds_plain hdisplay).mpr trivial
  · obtain rfl := List.mem_singleton.mp hfield
    rw [KeptFieldHolds, if_pos rfl]
    intro auth hauth child hchild
    obtain rfl := Json.dict.inj hauth
    rw [KeptAuthHolds, if_neg (by decide +revert), if_neg (by decide +revert)]
    simp only [sampleAuth, List.mem_cons, List.not_mem_nil, or_false] at hchild
    rcases hchild with rfl | rfl | rfl
    · exact (fieldHolds_plain htype).mpr trivial
    · exact (fieldHolds_plain hurl).mpr trivial
    · refine ⟨fun _ hstarts => ?_, trivial⟩
      rw [hmarked] at hstarts
      cases hstarts

theorem sampleRenamingBody_seals (key : List UInt8) :
    (CredentialRequest.update "vault_v0" "cred_c0" sampleRenamingBody).SealsSecrets
      sampleSettings key := by
  have hdisplay : isSecretKey "display_name" = false := isSecretKey_plain _ (by simp)
  intro field hfield
  obtain rfl := List.mem_singleton.mp hfield
  rw [KeptFieldHolds, if_neg (by simp)]
  exact (fieldHolds_plain hdisplay).mpr trivial

theorem sample_stored_secrets_sealed :
    sampleSealedWorld.history.length = 3 ∧
      ∀ state ∈ sampleSealedWorld.history,
        CredentialsSealed sampleSettings (List.replicate 32 0) state := by
  refine ⟨by decide, ?_⟩
  exact (@stored_secrets_sealed sampleInterpreter sampleSettings (List.replicate 32 0) rfl
    [sampleVault] sampleVault_not_credential sampleSealedWorld sampleSealing
    (Option.some_get _).symm).1.mpr
    ⟨fun _ => sampleAuthBody_seals _, fun _ _ =>
      ⟨fun _ => sampleRenamingBody_seals _, fun _ _ => trivial⟩⟩

theorem clear_text_not_ciphertext (settings : EncryptionSettings) (key : List UInt8) :
    ¬IsCiphertext settings key "abc" := by
  rintro ⟨nonce, value, htext⟩
  have hlength := congrArg String.length htext
  have hmarked : ENCRYPTED_PREFIX.length = 7 := by decide
  have habc : "abc".length = 3 := by decide
  rw [String.length_append] at hlength
  omega

theorem sample_flat_secret_in_clear :
    run (credentialStep sampleInterpreter sampleSettings) sampleVaultWorld
        [sampleStoring sampleFlatBody] = some sampleClearWorld ∧
      ¬CredentialsSealed sampleSettings (List.replicate 32 0)
        sampleClearWorld.current := by
  refine ⟨(Option.some_get _).symm, fun hsealed => ?_⟩
  have hclear : ∃ row ∈ sampleClearWorld.current, row.resourceType = .credential ∧
      ("token", Json.str "abc") ∈ row.data := by decide
  have hkey : isSecretKey "token" = true := isSecretKey_secret _ (by simp)
  obtain ⟨row, hrow, htype, hfield⟩ := hclear
  rcases (sealed_str "abc").mp ((hsealed row hrow htype _ hfield).1 hkey) with
    hempty | hcipher
  · simp at hempty
  · exact clear_text_not_ciphertext _ _ hcipher

end ManagedAgents
