import ManagedAgents.KeptSecrets

/-!
# Secrets of stored data

The stored data of a credential hold what the body or the patch holds, besides what was
there before.  Only `auth` is encrypted on the way.
-/

namespace ManagedAgents

open Fallible

/-- The field of a body that is stored: of `auth` what the check keeps, before it is
encrypted. -/
def KeptFieldHolds (Before After : Json → Prop) (field : String × Json) : Prop :=
  if field.1 = "auth" then
    ∀ auth, field.2 = .dict auth →
      ∀ child ∈ auth, KeptAuthHolds Before (Dict.get auth "type") child
  else FieldHolds After field

/-- All fields of a new credential but the type of the flat form. -/
def KeptBodyHolds (Before After : Json → Prop) (data : Dict) : Prop :=
  ∀ field ∈ data, Dict.contains data "auth" = false ∧ field.1 = "type" ∨
    KeptFieldHolds Before After field

/-- The field of an update: null and the empty text delete a key. -/
def KeptPatchHolds (Before After : Json → Prop) (field : String × Json) : Prop :=
  if field.1 = "auth" then KeptFieldHolds Before After field
  else PatchFieldHolds After field

/-! ## Metadata -/

section

variable {Holds : Json → Prop}

theorem normalizeMetadataFields_entries
    {before fields result : Dict}
    (hresult : normalizeMetadataFields before fields = .ok result) :
    ∀ field ∈ fields, ValidMetadataField field := by
  induction fields generalizing before with
  | nil => simp
  | cons field rest ih =>
      rw [normalizeMetadataFields_cons_eq_ok] at hresult
      exact List.forall_mem_cons.mpr ⟨hresult.1, ih hresult.2⟩

theorem normalizeMetadata_secretsHold_iff
    {metadata : Json} {result : Dict} (hkeyed : metadata.keyed = true)
    (hresult : normalizeMetadata metadata = .ok result) :
    Dict.SecretsHold Holds result ↔ Json.SecretsHold Holds metadata := by
  refine ⟨fun hsecrets => ?_, fun hsecrets =>
    normalizeMetadata_secretsHold hsecrets hresult⟩
  unfold normalizeMetadata at hresult
  split at hresult
  · trivial
  next fields =>
    simp only [bind_eq_ok, pure_eq_ok] at hresult
    obtain ⟨normalized, hnormalized, -, -, rfl⟩ := hresult
    have hsame := @normalizeMetadataFields_valid [] fields
      (normalizeMetadataFields_entries hnormalized) (Json.keyed_dict.mp hkeyed).distinct
    rw [hsame, List.nil_append, Except.ok.injEq] at hnormalized
    rw [Json.secretsHold_dict, hnormalized]
    exact hsecrets
  next => cases hresult

/-- Merged metadata hold the entries of the patch which are no deletions. -/
theorem mergeMetadata_secretsHold_patch
    {current value : Json} {result : Dict} (hvalue : value.keyed = true)
    (hnull : Holds .null) (hblank : Holds (.str ""))
    (hresult : mergeMetadata current value = .ok result)
    (hsecrets : Dict.SecretsHold Holds result) : Json.SecretsHold Holds value := by
  unfold mergeMetadata at hresult
  obtain ⟨merged, -, hresult⟩ := bind_eq_ok.mp hresult
  cases value with
  | null => trivial
  | dict fields =>
      have hdistinct := (Json.keyed_dict.mp hvalue).distinct
      rw [Json.secretsHold_dict]
      intro field hfield
      have hfound := (mergeMetadataFields_find hdistinct hresult).2 field hfield
      unfold patchedValue at hfound
      split at hfound
      next hdeletes =>
        obtain ⟨key, value⟩ := field
        rcases hdeletes with rfl | rfl
        · exact fieldHolds_null hnull key
        · exact ⟨fun _ => hblank, trivial⟩
      next =>
        have hget := hsecrets.get hnull field.1
        rwa [Dict.get_eq_find, hfound] at hget
  | bool | int | float | str | list => cases hresult

end

/-! ## Merged data -/

/-- What a merge leaves under the keys of the patch and under other keys. -/
structure PatchedFields (existing patch result : Dict) : Prop where
  kept : ∀ key ∉ patch.map Prod.fst, Dict.get result key = Dict.get existing key
  metadata : ∀ value, ("metadata", value) ∈ patch → ∃ current merged,
    mergeMetadata current value = .ok merged ∧ Dict.get result "metadata" = .dict merged
  written : ∀ field ∈ patch, field.1 ≠ "metadata" →
    field.2 = .null ∨ field.2 = .str "" ∨ Dict.get result field.1 = field.2

theorem mergeData_fields
    {existing patch result : Dict} (hpatch : (patch.map Prod.fst).Nodup)
    (hresult : mergeData existing patch = .ok result) :
    PatchedFields existing patch result := by
  induction patch generalizing existing with
  | nil =>
      cases hresult
      exact ⟨fun _ _ => rfl, by simp, by simp⟩
  | cons field rest ih =>
      obtain ⟨key, value⟩ := field
      rw [List.map_cons, List.nodup_cons] at hpatch
      have hstep : ∀ next : Dict, mergeData next rest = .ok result →
          (∀ other, key ≠ other → Dict.get next other = Dict.get existing other) →
          (key = "metadata" → ∃ current merged, mergeMetadata current value = .ok merged ∧
            Dict.get next "metadata" = .dict merged) →
          (key ≠ "metadata" → value = .null ∨ value = .str "" ∨
            Dict.get next key = value) →
          PatchedFields existing ((key, value) :: rest) result := by
        intro next hnext hother hmetadata hwritten
        have hrest := ih hpatch.2 hnext
        have hkey : Dict.get result key = Dict.get next key := hrest.kept key hpatch.1
        constructor
        · intro other hmem
          rw [List.map_cons, List.mem_cons, not_or] at hmem
          rw [hrest.kept other hmem.2, hother other (Ne.symm hmem.1)]
        · intro given hgiven
          rcases List.mem_cons.mp hgiven with hsame | hgiven
          · obtain ⟨rfl, rfl⟩ := Prod.mk.inj hsame
            obtain ⟨current, merged, hmerged, hget⟩ := hmetadata rfl
            exact ⟨current, merged, hmerged, hkey.trans hget⟩
          · exact hrest.metadata given hgiven
        · rw [List.forall_mem_cons]
          refine ⟨fun hplain => ?_, hrest.written⟩
          dsimp only
          rw [hkey]
          exact hwritten hplain
      rw [mergeData] at hresult
      split at hresult
      next hmetadata =>
        subst hmetadata
        simp only [bind_eq_ok, pure_eq_ok] at hresult
        obtain ⟨merged, hmerged, _, rfl, hresult⟩ := hresult
        refine hstep _ hresult (fun other hne => Dict.get_set_other _ hne)
          (fun _ => ⟨_, merged, hmerged, Dict.get_set_same _ _ _⟩) (fun hne => ?_)
        exact absurd rfl hne
      next hplain =>
        split at hresult
        next hdeletes =>
          simp only [bind_eq_ok, pure_eq_ok] at hresult
          obtain ⟨_, rfl, hresult⟩ := hresult
          refine hstep _ hresult (fun other hne => Dict.get_pop_other hne)
            (fun hsame => absurd hsame hplain) (fun _ => ?_)
          exact hdeletes.imp_right .inl
        next =>
          simp only [bind_eq_ok, pure_eq_ok] at hresult
          obtain ⟨_, rfl, hresult⟩ := hresult
          exact hstep _ hresult (fun other hne => Dict.get_set_other _ hne)
            (fun hsame => absurd hsame hplain)
            (fun _ => .inr (.inr (Dict.get_set_same _ _ _)))

/-- The fields of a patch are stored, except that the empty text deletes a key. -/
theorem mergeData_secretsHold_patch
    {Holds : Json → Prop} {existing patch result : Dict} (hpatch : Dict.Keyed patch)
    (hnull : Holds .null) (hblank : Holds (.str ""))
    (hresult : mergeData existing patch = .ok result)
    (hsecrets : Dict.SecretsHold Holds result) : Dict.SecretsHold Holds patch := by
  have hmetadataKey : isSecretKey "metadata" = false := isSecretKey_plain _ (by simp)
  have hfields := mergeData_fields hpatch.distinct hresult
  rintro ⟨key, value⟩ hfield
  have hget := hsecrets.get hnull key
  by_cases hmetadata : key = "metadata"
  · subst hmetadata
    obtain ⟨current, merged, hmerged, hheld⟩ := hfields.metadata value hfield
    rw [hheld, fieldHolds_plain hmetadataKey, Json.secretsHold_dict] at hget
    exact (fieldHolds_plain hmetadataKey).mpr
      (mergeMetadata_secretsHold_patch (hpatch.values _ hfield) hnull hblank hmerged hget)
  · rcases hfields.written _ hfield hmetadata with hdeletes | hdeletes | hwritten
    · dsimp only at hdeletes
      rw [hdeletes]
      exact fieldHolds_null hnull key
    · dsimp only at hdeletes
      rw [hdeletes]
      exact ⟨fun _ => hblank, trivial⟩
    · dsimp only at hwritten
      rwa [hwritten] at hget

/-! ## New credentials -/

/-- The steps of `_normalize_credential_data`. -/
structure NormalizedData (py : Interpreter) (cipher : SecretCipher) (data stored : Dict)
    (name : Option String) (auth normal encrypted metadata : Dict) : Prop where
  display : displayNameFromData data "credential" false = .ok name
  given : Dict.get (withAuth py (withDisplayName data name)) "auth" = .dict auth
  checked : normalizeCredentialAuth py (.dict auth) = .ok normal
  sealed : ∃ next, encryptSecretValues cipher normal 0 = .ok (encrypted, next)
  metadataChecked : normalizeMetadata
    (Dict.get (withAuth py (withDisplayName data name)) "metadata") = .ok metadata
  stored : stored = Dict.set (Dict.set (withAuth py (withDisplayName data name)) "auth"
    (.dict encrypted)) "metadata" (.dict metadata)

section

variable {py : Interpreter} {cipher : SecretCipher} {data stored : Dict}
  {name : Option String} {auth normal encrypted metadata : Dict}
  {Holds Before After : Json → Prop} {key : String}

theorem normalizeCredentialData_steps
    (hstored : normalizeCredentialData py cipher data = .ok stored) :
    ∃ name auth normal encrypted metadata,
      NormalizedData py cipher data stored name auth normal encrypted metadata := by
  unfold normalizeCredentialData at hstored
  simp only [bind_eq_ok, pure_eq_ok] at hstored
  obtain ⟨name, hname, normal, hnormal, ⟨encrypted, next⟩, hencrypted, metadata,
    hmetadata, rfl⟩ := hstored
  rw [Dict.get_set_other _ (by decide)] at hmetadata
  cases hauth : Dict.get (withAuth py (withDisplayName data name)) "auth" with
  | dict auth =>
      rw [hauth] at hnormal
      exact ⟨name, auth, normal, encrypted, metadata, hname, hauth, hnormal,
        ⟨next, hencrypted⟩, hmetadata, rfl⟩
  | null | bool | int | float | str | list =>
      rw [hauth] at hnormal
      cases hnormal

theorem withDisplayName_auth (data : Dict) (name : Option String) :
    Dict.get (withDisplayName data name) "auth" = Dict.get data "auth" := by
  cases name with
  | none => rfl
  | some name =>
      rw [withDisplayName, Dict.get_setdefault_other _ (by decide),
        Dict.get_set_other _ (by decide)]

theorem Json.secretsHold_of_falsy
    {value : Json} (hvalue : value.truthy = false) : Json.SecretsHold Holds value := by
  cases value with
  | list items =>
      obtain rfl : items = [] := by simpa [Json.truthy] using hvalue
      trivial
  | dict fields =>
      obtain rfl : fields = [] := by simpa [Json.truthy] using hvalue
      trivial
  | null | bool | int | float | str => trivial

/-- A display name is a text, and it replaces none but a false one. -/
theorem withDisplayName_fieldHolds
    (hname : displayNameFromData data "credential" false = .ok name) (key : String) :
    FieldHolds Holds (key, Dict.get (withDisplayName data name) key) ↔
      FieldHolds Holds (key, Dict.get data key) := by
  have hdisplayKey : isSecretKey "display_name" = false := isSecretKey_plain _ (by simp)
  have hnameKey : isSecretKey "name" = false := isSecretKey_plain _ (by simp)
  cases name with
  | none => exact Iff.rfl
  | some name =>
      rw [withDisplayName]
      by_cases hkey : key = "name"
      · subst hkey
        have hcontains := @Dict.contains_set_of_ne data "display_name" "name" (.str name)
          (by decide)
        unfold Dict.setdefault
        rw [hcontains]
        split
        · rw [Dict.get_set_other _ (by decide)]
        next habsent =>
          rw [Bool.not_eq_true] at habsent
          rw [Dict.get_set_same, Dict.get_of_not_contains habsent,
            fieldHolds_plain hnameKey, fieldHolds_plain hnameKey]
          exact iff_of_true trivial trivial
      · rw [Dict.get_setdefault_other _ (Ne.symm hkey)]
        by_cases hdisplay : key = "display_name"
        · subst hdisplay
          rw [Dict.get_set_same, fieldHolds_plain hdisplayKey,
            fieldHolds_plain hdisplayKey]
          refine iff_of_true trivial ?_
          cases htruthy : (Dict.get data "display_name").truthy with
          | false => exact Json.secretsHold_of_falsy htruthy
          | true =>
              unfold displayNameFromData at hname
              rw [Json.or, if_pos htruthy] at hname
              split at hname
              · cases hname
              next text htext =>
                rw [htext]
                trivial
              · cases hname
        · rw [Dict.get_set_other _ (Ne.symm hdisplay)]

theorem withAuth_get
    (hauth : key ≠ "auth") (htype : key = "type" → Dict.contains data "auth" = true) :
    Dict.get (withAuth py data) key = Dict.get data key := by
  unfold withAuth
  split
  · rfl
  next hcontains =>
    have hkey : "type" ≠ key := fun hsame => hcontains (htype hsame.symm)
    rw [Dict.get_set_other _ (Ne.symm hauth), Dict.get_pop_other hkey]

/-- A field besides `auth` is stored, unless it is the type of the flat form. -/
theorem NormalizedData.fieldHolds_iff
    (hsteps : NormalizedData py cipher data stored name auth normal encrypted metadata)
    (hdata : Dict.Keyed data) (hauth : key ≠ "auth")
    (htype : key = "type" → Dict.contains data "auth" = true) :
    FieldHolds Holds (key, Dict.get stored key) ↔
      FieldHolds Holds (key, Dict.get data key) := by
  have hmetadataKey : isSecretKey "metadata" = false := isSecretKey_plain _ (by simp)
  have hget : Dict.get (withAuth py (withDisplayName data name)) key =
      Dict.get (withDisplayName data name) key :=
    withAuth_get hauth (by rwa [contains_withDisplayName])
  rw [hsteps.stored, ← withDisplayName_fieldHolds hsteps.display key, ← hget]
  by_cases hkey : key = "metadata"
  · subst hkey
    have hkeyed : Dict.Keyed (withAuth py (withDisplayName data name)) :=
      withAuth_keyed (withDisplayName_keyed hdata name)
    rw [Dict.get_set_same, fieldHolds_plain hmetadataKey, fieldHolds_plain hmetadataKey,
      Json.secretsHold_dict]
    exact normalizeMetadata_secretsHold_iff (hkeyed.get _) hsteps.metadataChecked
  · rw [Dict.get_set_other _ (Ne.symm hkey), Dict.get_set_other _ (Ne.symm hauth)]

/-- The stored `auth` holds what the check keeps of the given one. -/
theorem NormalizedData.authHolds_iff
    (hsteps : NormalizedData py cipher data stored name auth normal encrypted metadata)
    (hdata : Dict.Keyed data) (hencrypts : Encrypts (encryptSecret cipher) Before After)
    (hnull : Before .null) :
    FieldHolds After ("auth", Dict.get stored "auth") ↔
      ∀ field ∈ auth, KeptAuthHolds Before (Dict.get auth "type") field := by
  have hauthKey : isSecretKey "auth" = false := isSecretKey_plain _ (by simp)
  have hnormalized : Dict.Keyed (withAuth py (withDisplayName data name)) :=
    withAuth_keyed (withDisplayName_keyed hdata name)
  have hauth := keyed_field hnormalized hsteps.given
  have hnormal := normalizeCredentialAuth_keyed (Json.keyed_dict.mpr hauth) hsteps.checked
  obtain ⟨next, hencrypted⟩ := hsteps.sealed
  rw [hsteps.stored, Dict.get_set_other _ (by decide), Dict.get_set_same,
    fieldHolds_plain hauthKey, Json.secretsHold_dict,
    encryptSecretValues_secretsHold hencrypts hencrypted]
  exact (normalizeCredentialAuth_checked hsteps.checked).secretsHold_iff hauth hnormal hnull

theorem keptFieldHolds_null
    (hnull : After .null) (key : String) : KeptFieldHolds Before After (key, .null) := by
  unfold KeptFieldHolds
  split
  · intro auth hauth
    cases hauth
  · exact fieldHolds_null hnull key

/-- The flat form makes an `auth` of the fields that are stored anyway. -/
theorem NormalizedData.legacyHolds
    (hsteps : NormalizedData py cipher data stored name auth normal encrypted metadata)
    (hdata : Dict.Keyed data) (hcontains : Dict.contains data "auth" = false)
    (hweaker : ∀ value, After value → Before value) (hnull : After .null)
    (hblank : After (.str ""))
    (hfields : ∀ key, key ≠ "type" → FieldHolds After (key, Dict.get data key)) :
    ∀ field ∈ auth, KeptAuthHolds Before (Dict.get auth "type") field := by
  have hdisplayed : Dict.Keyed (withDisplayName data name) :=
    withDisplayName_keyed hdata name
  have hpopped :
      Dict.SecretsHold After (Dict.pop (withDisplayName data name) "type") := by
    rw [(hdisplayed.pop _).secretsHold_iff hnull]
    intro key
    by_cases hkey : key = "type"
    · rw [hkey, Dict.get_pop_same]
      exact fieldHolds_null hnull _
    · rw [Dict.get_pop_other (Ne.symm hkey), withDisplayName_fieldHolds hsteps.display]
      exact hfields key hkey
  have hgiven := hsteps.given
  unfold withAuth at hgiven
  rw [contains_withDisplayName, hcontains, if_neg (by simp), Dict.get_set_same,
    Json.dict.injEq] at hgiven
  intro field hfield
  refine FieldHolds.keptAuth (FieldHolds.mono hweaker ?_) (hweaker _ hnull) _
  rw [← hgiven] at hfield
  exact legacyCredentialAuth_secretsHold hpopped hnull hblank field hfield

/-- A new credential holds what its body holds. -/
theorem normalizeCredentialData_secretsHold_iff
    (hdata : Dict.Keyed data) (hencrypts : Encrypts (encryptSecret cipher) Before After)
    (hweaker : ∀ value, After value → Before value) (hnull : After .null)
    (hblank : Dict.contains data "auth" = false → After (.str ""))
    (hstored : normalizeCredentialData py cipher data = .ok stored) :
    Dict.SecretsHold After stored ↔ KeptBodyHolds Before After data := by
  have hkeyed := normalizeCredentialData_keyed hdata hstored
  obtain ⟨name, auth, normal, encrypted, metadata, hsteps⟩ :=
    normalizeCredentialData_steps hstored
  have hauthHolds := hsteps.authHolds_iff hdata hencrypts (hweaker _ hnull)
  have hkept : KeptBodyHolds Before After data ↔ ∀ key,
      Dict.contains data "auth" = false ∧ key = "type" ∨
        KeptFieldHolds Before After (key, Dict.get data key) :=
    Dict.forall_field_iff hdata.distinct fun key => .inr (keptFieldHolds_null hnull key)
  rw [hkeyed.secretsHold_iff hnull, hkept]
  cases hcontains : Dict.contains data "auth" with
  | true =>
      refine forall_congr' fun key => ?_
      by_cases hkey : key = "auth"
      · subst hkey
        have hgiven := hsteps.given
        rw [withAuth, contains_withDisplayName, hcontains, if_pos rfl,
          withDisplayName_auth] at hgiven
        rw [hauthHolds, hgiven]
        simp [KeptFieldHolds]
      · rw [hsteps.fieldHolds_iff hdata hkey fun _ => hcontains]
        simp [KeptFieldHolds, hkey]
  | false =>
      have hother : ∀ key, key ≠ "auth" → key ≠ "type" →
          (FieldHolds After (key, Dict.get stored key) ↔
            FieldHolds After (key, Dict.get data key)) :=
        fun key hauth htype => hsteps.fieldHolds_iff hdata hauth fun hsame =>
          absurd hsame htype
      have habsent := Dict.get_of_not_contains hcontains
      constructor
      · intro hholds key
        by_cases htype : key = "type"
        · exact .inl ⟨rfl, htype⟩
        · refine .inr ?_
          by_cases hkey : key = "auth"
          · rw [hkey, habsent]
            exact keptFieldHolds_null hnull _
          · rw [KeptFieldHolds, if_neg hkey]
            exact (hother key hkey htype).mp (hholds key)
      · intro hfields
        have hplain : ∀ key, key ≠ "type" →
          FieldHolds After (key, Dict.get data key) := by
          intro key htype
          rcases hfields key with ⟨-, hsame⟩ | hfield
          · exact absurd hsame htype
          · by_cases hkey : key = "auth"
            · rw [hkey, habsent]
              exact fieldHolds_null hnull _
            · rwa [KeptFieldHolds, if_neg hkey] at hfield
        intro key
        by_cases hkey : key = "auth"
        · rw [hkey, hauthHolds]
          exact hsteps.legacyHolds hdata hcontains hweaker hnull (hblank hcontains) hplain
        · by_cases htype : key = "type"
          · have hgone : Dict.get stored "type" = .null := by
              rw [hsteps.stored, Dict.get_set_other _ (by decide),
                Dict.get_set_other _ (by decide), withAuth, contains_withDisplayName,
                hcontains, if_neg (by simp), Dict.get_set_other _ (by decide),
                Dict.get_pop_same]
            rw [htype, hgone]
            exact fieldHolds_null hnull _
          · exact (hother key hkey htype).mpr (hplain key htype)

end

/-! ## Updated credentials -/

section

variable {Before After : Json → Prop} {existing patch merged : Dict}

/-- The two ways of `_merge_resource_update`. -/
theorem mergeCredentialUpdate_cases
    (hexisting : CredentialShape existing)
    (hmerged : mergeCredentialUpdate existing patch = .ok merged) :
    Dict.contains patch "auth" = false ∧ mergeData existing patch = .ok merged ∨
      ∃ held given others auth, Dict.get existing "auth" = .dict held ∧
        Dict.get patch "auth" = .dict given ∧
        mergeData existing (Dict.pop patch "auth") = .ok others ∧
        mergeCredentialAuth (.dict held) given = .ok auth ∧
        merged = Dict.set others "auth" (.dict auth) := by
  unfold mergeCredentialUpdate at hmerged
  split at hmerged
  · split at hmerged
    next given hgiven =>
      obtain ⟨held, hheld⟩ := hexisting.auth
      simp only [hheld, bind_eq_ok, pure_eq_ok] at hmerged
      obtain ⟨others, hothers, auth, hauth, rfl⟩ := hmerged
      exact .inr ⟨held, given, others, auth, hheld, hgiven, hothers, hauth, rfl⟩
    next => cases hmerged
  next hcontains =>
    rw [Bool.not_eq_true] at hcontains
    exact .inl ⟨hcontains, hmerged⟩

theorem keptBodyHolds_iff
    (hmerged : Dict.Keyed merged) (hcontains : Dict.contains merged "auth" = true)
    (hnull : After .null) :
    KeptBodyHolds Before After merged ↔
      ∀ key, KeptFieldHolds Before After (key, Dict.get merged key) := by
  unfold KeptBodyHolds
  simp only [hcontains, Bool.true_eq_false, false_and, false_or]
  exact Dict.forall_field_iff hmerged.distinct (keptFieldHolds_null hnull)

theorem FieldHolds.kept
    {field : String × Json} (hfield : FieldHolds After field)
    (hweaker : ∀ value, After value → Before value) (hnull : After .null) :
    KeptFieldHolds Before After field := by
  unfold KeptFieldHolds
  split
  · intro auth hauth child hchild
    have hfields := hfield.2
    rw [hauth, Json.secretsHold_dict] at hfields
    exact ((hfields child hchild).mono hweaker).keptAuth (hweaker _ hnull) _
  · exact hfield

theorem mergeCredentialUpdate_contains
    (hexisting : CredentialShape existing)
    (hmerged : mergeCredentialUpdate existing patch = .ok merged) :
    Dict.contains merged "auth" = true := by
  rcases mergeCredentialUpdate_cases hexisting hmerged with
    ⟨habsent, hmerged⟩ | ⟨_, _, others, auth, -, -, -, -, rfl⟩
  · rw [mergeData_contains habsent (by decide) hmerged]
    exact hexisting.contains_auth
  · exact Dict.contains_set_self _ _ _

/-- An update of data that hold the property brings what its patch brings. -/
theorem mergeCredentialUpdate_keptBody
    (hexisting : CredentialShape existing) (hpatch : Dict.Keyed patch)
    (hweaker : ∀ value, After value → Before value) (hnull : After .null)
    (hsecrets : Dict.SecretsHold After existing)
    (hfields : ∀ field ∈ patch, KeptPatchHolds Before After field)
    (hmerged : mergeCredentialUpdate existing patch = .ok merged) :
    KeptBodyHolds Before After merged := by
  have hkeyed := mergeCredentialUpdate_keyed hexisting.keyed hpatch hmerged
  rw [keptBodyHolds_iff hkeyed (mergeCredentialUpdate_contains hexisting hmerged) hnull]
  have hplain : ∀ field ∈ patch, field.1 ≠ "auth" → PatchFieldHolds After field := by
    intro field hfield hkey
    have hkept := hfields field hfield
    rwa [KeptPatchHolds, if_neg hkey] at hkept
  intro key
  rcases mergeCredentialUpdate_cases hexisting hmerged with
    ⟨habsent, hmerged⟩ | ⟨held, given, others, auth, hheld, hgiven, hothers, hauth, rfl⟩
  · have hdata := mergeData_secretsHold hsecrets (fun field hfield =>
      hplain field hfield fun hkey => ?_) hnull hmerged
    · exact (hdata.get hnull key).kept hweaker hnull
    · have hmem := Dict.contains_iff.mpr (List.mem_map.mpr ⟨field, hfield, hkey⟩)
      rw [habsent] at hmem
      cases hmem
  · have hdata := mergeData_secretsHold hsecrets (fun field hfield => by
      obtain ⟨hmem, hkey⟩ := List.mem_filter.mp hfield
      exact hplain field hmem (by simpa using hkey)) hnull hothers
    by_cases hkey : key = "auth"
    · subst hkey
      have hheldSecrets := (hsecrets.get hnull "auth").2
      rw [hheld, Json.secretsHold_dict] at hheldSecrets
      have hgivenKept : KeptPatchHolds Before After ("auth", Dict.get patch "auth") :=
        Dict.get_holds hfields (by
          rw [KeptPatchHolds, if_pos rfl]
          exact keptFieldHolds_null hnull _)
      rw [Dict.get_set_same, KeptFieldHolds, if_pos rfl]
      rintro _ ⟨rfl⟩
      refine (mergeCredentialAuth_kept_iff (keyed_field hexisting.keyed hheld)
        (keyed_field hpatch hgiven) (hweaker _ hnull) (hheldSecrets.mono hweaker)
        hauth).mpr ?_
      rw [KeptPatchHolds, if_pos rfl, KeptFieldHolds, if_pos rfl] at hgivenKept
      exact hgivenKept given hgiven
    · rw [Dict.get_set_other _ (Ne.symm hkey)]
      exact (hdata.get hnull key).kept hweaker hnull

/-- The updated data hold the property only if the patch does. -/
theorem mergeCredentialUpdate_patch
    (hexisting : CredentialShape existing) (hpatch : Dict.Keyed patch)
    (hweaker : ∀ value, After value → Before value) (hnull : After .null)
    (hblank : After (.str "")) (hsecrets : Dict.SecretsHold After existing)
    (hmerged : mergeCredentialUpdate existing patch = .ok merged)
    (hkept : KeptBodyHolds Before After merged) :
    ∀ field ∈ patch, KeptFieldHolds Before After field := by
  have hkeyed := mergeCredentialUpdate_keyed hexisting.keyed hpatch hmerged
  rw [keptBodyHolds_iff hkeyed (mergeCredentialUpdate_contains hexisting hmerged) hnull]
    at hkept
  have hplain : ∀ key, key ≠ "auth" → FieldHolds After (key, Dict.get merged key) := by
    intro key hkey
    have hfield := hkept key
    rwa [KeptFieldHolds, if_neg hkey] at hfield
  -- a merge that does not name `auth` leaves the one before
  have hothersHold : ∀ fields others, Dict.contains fields "auth" = false →
      Dict.Keyed fields → mergeData existing fields = .ok others →
      (∀ key, key ≠ "auth" → Dict.get merged key = Dict.get others key) →
      Dict.SecretsHold After fields := by
    intro fields others habsent hfields hothers hsame
    refine mergeData_secretsHold_patch hfields hnull hblank hothers ?_
    rw [(mergeData_keyed hexisting.keyed hfields hothers).secretsHold_iff hnull]
    intro key
    by_cases hkey : key = "auth"
    · subst hkey
      have hnamed : "auth" ∉ fields.map Prod.fst := by
        rw [← Dict.contains_iff, habsent]
        simp
      rw [(mergeData_fields hfields.distinct hothers).kept "auth" hnamed]
      exact hsecrets.get hnull "auth"
    · rw [← hsame key hkey]
      exact hplain key hkey
  rcases mergeCredentialUpdate_cases hexisting hmerged with
    ⟨habsent, hmerged⟩ | ⟨held, given, others, auth, hheld, hgiven, hothers, hauth, rfl⟩
  · have hdata := hothersHold patch merged habsent hpatch hmerged fun _ _ => rfl
    exact fun field hfield => (hdata field hfield).kept hweaker hnull
  · have hdata := hothersHold (Dict.pop patch "auth") others
      (by simp [Dict.contains, Dict.pop]) (hpatch.pop _) hothers
      fun key hkey => Dict.get_set_other _ (Ne.symm hkey)
    have hheldSecrets := (hsecrets.get hnull "auth").2
    rw [hheld, Json.secretsHold_dict] at hheldSecrets
    intro field hfield
    by_cases hkey : field.1 = "auth"
    · have hvalue := Dict.get_of_mem hpatch.distinct hfield
      rw [hkey, hgiven] at hvalue
      have hauthKept := hkept "auth"
      rw [Dict.get_set_same, KeptFieldHolds, if_pos rfl] at hauthKept
      rw [KeptFieldHolds, if_pos hkey, ← hvalue]
      rintro _ ⟨rfl⟩
      exact (mergeCredentialAuth_kept_iff (keyed_field hexisting.keyed hheld)
        (keyed_field hpatch hgiven) (hweaker _ hnull) (hheldSecrets.mono hweaker)
        hauth).mp (hauthKept auth rfl)
    · have hmem : field ∈ Dict.pop patch "auth" :=
        List.mem_filter.mpr ⟨hfield, by simpa using hkey⟩
      exact (hdata field hmem).kept hweaker hnull

end

end ManagedAgents
