import ManagedAgents.Credentials
import ManagedAgents.DictAgreement
import ManagedAgents.ValidMetadata

/-!
# Values under secret keys

A property of all values that a dictionary holds under secret keys, at any depth,
and how building, merging and encrypting dictionaries keep it.
-/

namespace ManagedAgents

open Fallible

/-! ## Keys -/

/-- The named fields that are stored as they are. -/
theorem isSecretKey_plain :
    ∀ key ∈ ["auth", "type", "name", "display_name", "mcp_server_url", "metadata",
        "last_validation", "secrets_purged_at", "secret_name", "networking",
        "allowed_hosts", "expires_at", "refresh", "token_endpoint_auth"],
      isSecretKey key = false := by
  decide

theorem isSecretKey_secret :
    ∀ key ∈ ["token", "api_key"], isSecretKey key = true := by
  decide

/-! ## Values at any depth -/

mutual

def Json.SecretsHold (Holds : Json → Prop) : Json → Prop
  | .dict fields => Json.FieldSecretsHold Holds fields
  | .list items => Json.ItemSecretsHold Holds items
  | _ => True

def Json.ItemSecretsHold (Holds : Json → Prop) : List Json → Prop
  | [] => True
  | item :: rest => Json.SecretsHold Holds item ∧ Json.ItemSecretsHold Holds rest

def Json.FieldSecretsHold (Holds : Json → Prop) : List (String × Json) → Prop
  | [] => True
  | (key, child) :: rest =>
      ((isSecretKey key = true → Holds child) ∧ Json.SecretsHold Holds child) ∧
        Json.FieldSecretsHold Holds rest

end

/-- The field and what it contains. -/
def FieldHolds (Holds : Json → Prop) (field : String × Json) : Prop :=
  (isSecretKey field.1 = true → Holds field.2) ∧ Json.SecretsHold Holds field.2

/-- All values under secret keys have the property. -/
def Dict.SecretsHold (Holds : Json → Prop) (fields : Dict) : Prop :=
  ∀ field ∈ fields, FieldHolds Holds field

section

variable {Holds Weaker : Json → Prop}

theorem Json.fieldSecretsHold_iff
    {fields : List (String × Json)} :
    Json.FieldSecretsHold Holds fields ↔ Dict.SecretsHold Holds fields := by
  unfold Dict.SecretsHold
  induction fields with
  | nil => simp [Json.FieldSecretsHold]
  | cons field rest ih => simp [Json.FieldSecretsHold, ih, FieldHolds]

theorem Json.itemSecretsHold_iff
    {items : List Json} :
    Json.ItemSecretsHold Holds items ↔ ∀ item ∈ items, Json.SecretsHold Holds item := by
  induction items with
  | nil => simp [Json.ItemSecretsHold]
  | cons item rest ih => simp [Json.ItemSecretsHold, ih]

@[simp] theorem Json.secretsHold_dict
    {fields : Dict} :
    Json.SecretsHold Holds (.dict fields) ↔ Dict.SecretsHold Holds fields := by
  rw [Json.SecretsHold, Json.fieldSecretsHold_iff]

@[simp] theorem Json.secretsHold_list
    {items : List Json} :
    Json.SecretsHold Holds (.list items) ↔
      ∀ item ∈ items, Json.SecretsHold Holds item := by
  rw [Json.SecretsHold, Json.itemSecretsHold_iff]

@[simp] theorem Json.secretsHold_str (text : String) :
    Json.SecretsHold Holds (.str text) := trivial

@[simp] theorem Json.secretsHold_null : Json.SecretsHold Holds .null := trivial

@[simp] theorem Json.secretsHold_bool (value : Bool) :
    Json.SecretsHold Holds (.bool value) := trivial

/-- The key of the field is not a secret one. -/
theorem fieldHolds_plain
    {key : String} {value : Json} (hkey : isSecretKey key = false) :
    FieldHolds Holds (key, value) ↔ Json.SecretsHold Holds value := by
  simp [FieldHolds, hkey]

theorem fieldHolds_null
    (hnull : Holds .null) (key : String) : FieldHolds Holds (key, .null) :=
  ⟨fun _ => hnull, trivial⟩

mutual

theorem Json.SecretsHold.mono
    (hweaker : ∀ value, Holds value → Weaker value) :
    ∀ value, Json.SecretsHold Holds value → Json.SecretsHold Weaker value
  | .dict fields, hvalue => Json.FieldSecretsHold.mono hweaker fields hvalue
  | .list items, hvalue => Json.ItemSecretsHold.mono hweaker items hvalue
  | .null, _ | .bool _, _ | .int _, _ | .float _, _ | .str _, _ => trivial

theorem Json.ItemSecretsHold.mono
    (hweaker : ∀ value, Holds value → Weaker value) :
    ∀ items, Json.ItemSecretsHold Holds items → Json.ItemSecretsHold Weaker items
  | [], _ => trivial
  | item :: rest, hitems =>
      ⟨Json.SecretsHold.mono hweaker item hitems.1,
        Json.ItemSecretsHold.mono hweaker rest hitems.2⟩

theorem Json.FieldSecretsHold.mono
    (hweaker : ∀ value, Holds value → Weaker value) :
    ∀ fields, Json.FieldSecretsHold Holds fields → Json.FieldSecretsHold Weaker fields
  | [], _ => trivial
  | (_, child) :: rest, hfields =>
      ⟨⟨fun hkey => hweaker _ (hfields.1.1 hkey),
        Json.SecretsHold.mono hweaker child hfields.1.2⟩,
        Json.FieldSecretsHold.mono hweaker rest hfields.2⟩

end

theorem FieldHolds.mono
    (hweaker : ∀ value, Holds value → Weaker value) {field : String × Json}
    (hfield : FieldHolds Holds field) : FieldHolds Weaker field :=
  ⟨fun hkey => hweaker _ (hfield.1 hkey), Json.SecretsHold.mono hweaker _ hfield.2⟩

theorem Dict.SecretsHold.mono
    (hweaker : ∀ value, Holds value → Weaker value) {fields : Dict}
    (hfields : Dict.SecretsHold Holds fields) : Dict.SecretsHold Weaker fields :=
  fun field hfield => (hfields field hfield).mono hweaker

theorem Dict.SecretsHold.get
    {fields : Dict} (hfields : Dict.SecretsHold Holds fields) (hnull : Holds .null)
    (key : String) : FieldHolds Holds (key, Dict.get fields key) :=
  Dict.get_holds hfields (fieldHolds_null hnull key)

end

/-! ## Merging -/

section

variable {Holds : Json → Prop}

/-- The texts of metadata are the ones that were given. -/
theorem normalizeMetadata_secretsHold
    {metadata : Json} {result : Dict} (hmetadata : Json.SecretsHold Holds metadata)
    (hresult : normalizeMetadata metadata = .ok result) :
    Dict.SecretsHold Holds result := by
  refine normalizeMetadata_forall ?_ hresult
  rintro fields rfl field hfield -
  exact Json.secretsHold_dict.mp hmetadata field hfield

theorem mergeMetadata_secretsHold
    {current patch : Json} {result : Dict} (hcurrent : Json.SecretsHold Holds current)
    (hpatch : ∀ fields, patch = .dict fields → ∀ field ∈ fields,
      field.2 = .null ∨ field.2 = .str "" ∨ FieldHolds Holds field)
    (hresult : mergeMetadata current patch = .ok result) :
    Dict.SecretsHold Holds result := by
  refine mergeMetadata_forall ?_ ?_ hresult
  · rintro fields rfl field hfield -
    exact Json.secretsHold_dict.mp hcurrent field hfield
  · rintro fields rfl field hfield ⟨-, -, text, htext, -⟩ hblank
    rcases hpatch fields rfl field hfield with hnull | hempty | hheld
    · rw [htext] at hnull
      cases hnull
    · exact absurd hempty hblank
    · exact hheld

theorem Json.SecretsHold.or
    {left right : Json} (hleft : Json.SecretsHold Holds left)
    (hright : Json.SecretsHold Holds right) : Json.SecretsHold Holds (left.or right) := by
  unfold Json.or
  split
  · exact hleft
  · exact hright

/-- What an update leaves of the field: null and the empty text delete a key. -/
def PatchFieldHolds (Holds : Json → Prop) (field : String × Json) : Prop :=
  field.2 = .null ∨ field.2 = .str "" ∨
    if field.1 = "metadata" then
      ∀ entries, field.2 = .dict entries → ∀ entry ∈ entries,
        entry.2 = .null ∨ entry.2 = .str "" ∨ FieldHolds Holds entry
    else FieldHolds Holds field

theorem FieldHolds.patch
    {field : String × Json} (hfield : FieldHolds Holds field) :
    PatchFieldHolds Holds field := by
  refine .inr (.inr ?_)
  split
  · intro entries hentries entry hentry
    have hheld := hfield.2
    rw [hentries, Json.secretsHold_dict] at hheld
    exact .inr (.inr (hheld entry hentry))
  · exact hfield

theorem mergeData_secretsHold
    {existing update result : Dict} (hexisting : Dict.SecretsHold Holds existing)
    (hupdate : ∀ field ∈ update, PatchFieldHolds Holds field) (hnull : Holds .null)
    (hresult : mergeData existing update = .ok result) :
    Dict.SecretsHold Holds result := by
  induction update generalizing existing with
  | nil =>
      cases hresult
      exact hexisting
  | cons field rest ih =>
      obtain ⟨key, value⟩ := field
      obtain ⟨hfirst, hrest⟩ := List.forall_mem_cons.mp hupdate
      unfold PatchFieldHolds at hfirst
      rw [mergeData] at hresult
      split at hresult
      next hkey =>
        subst hkey
        simp only [bind_eq_ok, pure_eq_ok] at hresult
        obtain ⟨metadata, hmetadata, _, rfl, hresult⟩ := hresult
        have hplain : isSecretKey "metadata" = false := isSecretKey_plain _ (by simp)
        refine ih (Dict.forall_set hexisting
          ((fieldHolds_plain hplain).mpr ?_)) hrest hresult
        refine Json.secretsHold_dict.mpr (mergeMetadata_secretsHold ?_ ?_ hmetadata)
        · exact (hexisting.get hnull "metadata").2.or (by simp [Dict.SecretsHold])
        · rintro entries rfl
          rcases hfirst with hfirst | hfirst | hfirst
          · cases hfirst
          · cases hfirst
          · simp only [if_true] at hfirst
            exact hfirst entries rfl
      next hkey =>
        simp only [hkey, if_false] at hfirst
        split at hresult
        · simp only [bind_eq_ok, pure_eq_ok] at hresult
          obtain ⟨_, rfl, hresult⟩ := hresult
          exact ih (Dict.forall_pop hexisting) hrest hresult
        next hkept =>
          rw [not_or] at hkept
          simp only [bind_eq_ok, pure_eq_ok] at hresult
          obtain ⟨_, rfl, hresult⟩ := hresult
          rcases hfirst with hfirst | hfirst | hfirst
          · exact absurd hfirst hkept.1
          · exact absurd hfirst hkept.2
          · exact ih (Dict.forall_set hexisting hfirst) hrest hresult

end

/-! ## Encrypting -/

section

variable {Value Result : Type}

theorem encrypting_bind_eq_ok
    {first : Encrypting Value} {second : Value → Encrypting Result} {draw : ℕ}
    {result : Result × ℕ} :
    (first >>= second) draw = .ok result ↔
      ∃ value next, first draw = .ok (value, next) ∧ second value next = .ok result := by
  change (first draw >>= fun pair => second pair.1 pair.2) = .ok result ↔ _
  rw [bind_eq_ok]
  exact ⟨fun ⟨pair, hfirst, hsecond⟩ => ⟨pair.1, pair.2, hfirst, hsecond⟩,
    fun ⟨value, next, hfirst, hsecond⟩ => ⟨(value, next), hfirst, hsecond⟩⟩

theorem encrypting_pure_eq_ok
    {value : Value} {draw : ℕ} {result : Value × ℕ} :
    (pure value : Encrypting Value) draw = .ok result ↔ (value, draw) = result := by
  change Except.ok (value, draw) = .ok result ↔ _
  rw [Except.ok.injEq]

theorem encrypting_map_eq_ok
    {function : Value → Result} {computation : Encrypting Value} {draw : ℕ}
    {result : Result × ℕ} :
    (function <$> computation) draw = .ok result ↔
      ∃ value, computation draw = .ok (value, result.2) ∧ function value = result.1 := by
  rw [map_eq_pure_bind, encrypting_bind_eq_ok]
  constructor
  · rintro ⟨value, next, hvalue, hresult⟩
    rw [encrypting_pure_eq_ok] at hresult
    subst hresult
    exact ⟨value, hvalue, rfl⟩
  · rintro ⟨value, hvalue, hresult⟩
    refine ⟨value, result.2, hvalue, encrypting_pure_eq_ok.mpr ?_⟩
    rw [hresult]

end

section

variable {transform : String → Encrypting String}

def Json.IsLeaf : Json → Prop
  | .dict _ | .list _ => False
  | _ => True

theorem walk_leaf
    (value : Json) (hleaf : value.IsLeaf) (draw : ℕ) :
    walk transform value draw = .ok (value, draw) := by
  cases value with
  | dict fields => cases hleaf
  | list items => cases hleaf
  | null | bool | int | float | str =>
      rw [walk]
      · rfl
      all_goals simp

theorem isLeaf_str (text : String) : (Json.str text).IsLeaf := trivial

/-- A walk makes no leaf of anything else. -/
theorem walk_eq_leaf
    {value leaf encrypted : Json} {draw next : ℕ} (hleaf : leaf.IsLeaf)
    (hwalk : walk transform value draw = .ok (encrypted, next)) :
    encrypted = leaf ↔ value = leaf := by
  by_cases hvalue : value.IsLeaf
  · rw [walk_leaf value hvalue] at hwalk
    cases hwalk
    exact Iff.rfl
  · have hencrypted : ¬encrypted.IsLeaf := by
      cases value with
      | dict fields =>
          rw [walk] at hwalk
          obtain ⟨walked, _, -, hresult⟩ := encrypting_bind_eq_ok.mp hwalk
          cases encrypting_pure_eq_ok.mp hresult
          exact id
      | list items =>
          rw [walk] at hwalk
          obtain ⟨walked, _, -, hresult⟩ := encrypting_bind_eq_ok.mp hwalk
          cases encrypting_pure_eq_ok.mp hresult
          exact id
      | null | bool | int | float | str => exact absurd trivial hvalue
    constructor
    · rintro rfl
      exact absurd hleaf hencrypted
    · rintro rfl
      exact absurd hleaf hvalue

end

/-- Encrypting makes values with the second property of those with the first, and of no
others. -/
structure Encrypts (transform : String → Encrypting String) (Before After : Json → Prop) :
    Prop where
  text : ∀ value draw encrypted next, transform value draw = .ok (encrypted, next) →
    (After (.str encrypted) ↔ Before (.str value))
  other : ∀ value draw encrypted next, (∀ text, value ≠ .str text) →
    walk transform value draw = .ok (encrypted, next) → (After encrypted ↔ Before value)

section

variable {transform : String → Encrypting String} {Before After : Json → Prop}

theorem secretText_eq_some
    {key text : String} {value : Json} :
    secretText key value = some text ↔ isSecretKey key = true ∧ value = .str text := by
  cases value <;> simp [secretText]

mutual

theorem walk_secretsHold
    (hencrypts : Encrypts transform Before After) :
    ∀ (value : Json) {draw : ℕ} {encrypted : Json} {next : ℕ},
      walk transform value draw = .ok (encrypted, next) →
        (Json.SecretsHold After encrypted ↔ Json.SecretsHold Before value)
  | .dict fields, draw, encrypted, next, hwalk => by
      rw [walk] at hwalk
      obtain ⟨walked, _, hwalked, hresult⟩ := encrypting_bind_eq_ok.mp hwalk
      cases encrypting_pure_eq_ok.mp hresult
      exact walkFields_secretsHold hencrypts fields hwalked
  | .list items, draw, encrypted, next, hwalk => by
      rw [walk] at hwalk
      obtain ⟨walked, _, hwalked, hresult⟩ := encrypting_bind_eq_ok.mp hwalk
      cases encrypting_pure_eq_ok.mp hresult
      exact walkItems_secretsHold hencrypts items hwalked
  | .null, _, _, _, hwalk | .bool _, _, _, _, hwalk | .int _, _, _, _, hwalk
  | .float _, _, _, _, hwalk | .str _, _, _, _, hwalk => by
      rw [walk] at hwalk
      · cases encrypting_pure_eq_ok.mp hwalk
        exact Iff.rfl
      all_goals simp

theorem walkItems_secretsHold
    (hencrypts : Encrypts transform Before After) :
    ∀ (items : List Json) {draw : ℕ} {encrypted : List Json} {next : ℕ},
      walkItems transform items draw = .ok (encrypted, next) →
        (Json.ItemSecretsHold After encrypted ↔ Json.ItemSecretsHold Before items)
  | [], draw, encrypted, next, hwalk => by
      rw [walkItems] at hwalk
      cases encrypting_pure_eq_ok.mp hwalk
      exact Iff.rfl
  | item :: rest, draw, encrypted, next, hwalk => by
      rw [walkItems] at hwalk
      obtain ⟨first, _, hfirst, hwalk⟩ := encrypting_bind_eq_ok.mp hwalk
      obtain ⟨others, _, hothers, hresult⟩ := encrypting_bind_eq_ok.mp hwalk
      cases encrypting_pure_eq_ok.mp hresult
      exact and_congr (walk_secretsHold hencrypts item hfirst)
        (walkItems_secretsHold hencrypts rest hothers)

theorem walkFields_secretsHold
    (hencrypts : Encrypts transform Before After) :
    ∀ (fields : List (String × Json)) {draw : ℕ} {encrypted : List (String × Json)}
      {next : ℕ}, walkFields transform fields draw = .ok (encrypted, next) →
        (Json.FieldSecretsHold After encrypted ↔ Json.FieldSecretsHold Before fields)
  | [], draw, encrypted, next, hwalk => by
      rw [walkFields] at hwalk
      cases encrypting_pure_eq_ok.mp hwalk
      exact Iff.rfl
  | (key, child) :: rest, draw, encrypted, next, hwalk => by
      rw [walkFields] at hwalk
      cases htext : secretText key child with
      | some text =>
          obtain ⟨hkey, rfl⟩ := secretText_eq_some.mp htext
          simp only [htext] at hwalk
          obtain ⟨first, _, hfirst, hwalk⟩ := encrypting_bind_eq_ok.mp hwalk
          obtain ⟨others, _, hothers, hresult⟩ := encrypting_bind_eq_ok.mp hwalk
          cases encrypting_pure_eq_ok.mp hresult
          obtain ⟨value, hvalue, rfl⟩ := encrypting_map_eq_ok.mp hfirst
          refine and_congr (and_congr (imp_congr_right fun _ => ?_) Iff.rfl)
            (walkFields_secretsHold hencrypts rest hothers)
          exact hencrypts.text _ _ _ _ hvalue
      | none =>
          simp only [htext] at hwalk
          obtain ⟨first, _, hfirst, hwalk⟩ := encrypting_bind_eq_ok.mp hwalk
          obtain ⟨others, _, hothers, hresult⟩ := encrypting_bind_eq_ok.mp hwalk
          cases encrypting_pure_eq_ok.mp hresult
          refine and_congr (and_congr (imp_congr_right fun hkey => ?_)
            (walk_secretsHold hencrypts child hfirst))
            (walkFields_secretsHold hencrypts rest hothers)
          refine hencrypts.other _ _ _ _ (fun text htextual => ?_) hfirst
          rw [secretText_eq_some.mpr ⟨hkey, htextual⟩] at htext
          cases htext

end

theorem encryptSecretValues_secretsHold
    {cipher : SecretCipher} {fields encrypted : Dict} {draw next : ℕ}
    (hencrypts : Encrypts (encryptSecret cipher) Before After)
    (hencrypted : encryptSecretValues cipher fields draw = .ok (encrypted, next)) :
    Dict.SecretsHold After encrypted ↔ Dict.SecretsHold Before fields := by
  rw [← Json.fieldSecretsHold_iff, ← Json.fieldSecretsHold_iff]
  exact walkFields_secretsHold hencrypts fields hencrypted

end

/-! ## Built objects -/

section

variable {Holds : Json → Prop}

theorem normalizeCredentialNetworking_secretsHold
    {value : Json} {result : Dict}
    (hresult : normalizeCredentialNetworking value = .ok result) :
    Dict.SecretsHold Holds result := by
  have htype : isSecretKey "type" = false := isSecretKey_plain _ (by simp)
  have hhosts : isSecretKey "allowed_hosts" = false := isSecretKey_plain _ (by simp)
  unfold normalizeCredentialNetworking at hresult
  split at hresult
  next fields =>
    split at hresult
    · cases hresult
      simp [Dict.SecretsHold, fieldHolds_plain htype]
    · split at hresult
      · cases hresult
      · split at hresult
        next hosts _ =>
          split at hresult
          · cases hresult
          · split at hresult
            next hbare =>
              cases hresult
              simp only [Dict.SecretsHold, List.forall_mem_cons, fieldHolds_plain htype,
                fieldHolds_plain hhosts, Json.secretsHold_str, Json.secretsHold_list,
                true_and]
              refine ⟨fun host hhost => ?_, by simp⟩
              have hname := List.all_eq_true.mp hbare host hhost
              cases host with
              | str name => trivial
              | _ => cases hname
            next => cases hresult
        next => cases hresult
  next => cases hresult

theorem FieldHolds.rename
    {key other : String} {value : Json}
    (hfield : FieldHolds Holds (key, value)) (hkey : isSecretKey key = true) :
    FieldHolds Holds (other, value) :=
  ⟨fun _ => hfield.1 hkey, hfield.2⟩

theorem FieldHolds.or
    {key : String} {left right : Json}
    (hleft : FieldHolds Holds (key, left)) (hright : FieldHolds Holds (key, right)) :
    FieldHolds Holds (key, left.or right) := by
  unfold Json.or
  split
  · exact hleft
  · exact hright

/-- The flat form has the values of the body and empty texts. -/
theorem legacyCredentialAuth_secretsHold
    {authType : String} {data : Dict}
    (hdata : Dict.SecretsHold Holds data) (hnull : Holds .null)
    (hblank : Holds (.str "")) :
    Dict.SecretsHold Holds (legacyCredentialAuth authType data) := by
  have htype : isSecretKey "type" = false := isSecretKey_plain _ (by simp)
  have hurl : isSecretKey "mcp_server_url" = false := isSecretKey_plain _ (by simp)
  have hname : isSecretKey "secret_name" = false := isSecretKey_plain _ (by simp)
  have hnetworking : isSecretKey "networking" = false := isSecretKey_plain _ (by simp)
  have hexpires : isSecretKey "expires_at" = false := isSecretKey_plain _ (by simp)
  have hrefresh : isSecretKey "refresh" = false := isSecretKey_plain _ (by simp)
  have hapi : isSecretKey "api_key" = true := isSecretKey_secret _ (by simp)
  have hblankField : ∀ key, FieldHolds Holds (key, .str "") := fun key =>
    ⟨fun _ => hblank, trivial⟩
  have hvalue : ∀ key, Json.SecretsHold Holds (Dict.get data key) := fun key =>
    (hdata.get hnull key).2
  unfold legacyCredentialAuth Dict.SecretsHold
  split
  · simp only [List.forall_mem_cons, fieldHolds_plain htype, fieldHolds_plain hurl]
    refine ⟨trivial, (hvalue _).or trivial, ?_, by simp⟩
    exact ((hdata.get hnull "token").or ((hdata.get hnull "api_key").rename hapi)).or
      (hblankField "token")
  · split
    · simp only [List.forall_mem_cons, fieldHolds_plain htype, fieldHolds_plain hname,
        fieldHolds_plain hnetworking]
      refine ⟨trivial, ((hvalue _).or (hvalue _)).or trivial, ?_, ?_, by simp⟩
      · exact (hdata.get hnull "secret_value").or (hblankField "secret_value")
      · refine (hvalue _).or (Json.secretsHold_dict.mpr ?_)
        simp [Dict.SecretsHold, fieldHolds_plain htype]
    · simp only [List.forall_mem_cons, fieldHolds_plain htype, fieldHolds_plain hurl,
        fieldHolds_plain hexpires, fieldHolds_plain hrefresh]
      refine ⟨trivial, (hvalue _).or trivial, ?_, hvalue _, hvalue _, by simp⟩
      exact (hdata.get hnull "access_token").or (hblankField "access_token")

end

/-! ## Keys that stay -/

theorem contains_withDisplayName
    (data : Dict) (name : Option String) :
    Dict.contains (withDisplayName data name) "auth" =
      Dict.contains data "auth" := by
  cases name with
  | none => rfl
  | some name =>
      change Dict.contains (Dict.setdefault (Dict.set data "display_name" (.str name))
        "name" (.str name)) "auth" = _
      unfold Dict.setdefault
      have hdisplay := @Dict.contains_set_of_ne data "display_name" "auth" (.str name)
        (by decide)
      split
      · exact hdisplay
      · rw [Dict.contains_set_of_ne _ (by decide), hdisplay]

/-- A key which the update does not name stays. -/
theorem mergeData_contains
    {existing update result : Dict} {key : String}
    (hkey : Dict.contains update key = false) (hmetadata : key ≠ "metadata")
    (hresult : mergeData existing update = .ok result) :
    Dict.contains result key = Dict.contains existing key := by
  induction update generalizing existing with
  | nil =>
      cases hresult
      rfl
  | cons field rest ih =>
      obtain ⟨given, value⟩ := field
      simp only [Dict.contains, List.any_cons, Bool.or_eq_false_iff,
        decide_eq_false_iff_not] at hkey
      rw [mergeData] at hresult
      split at hresult
      · simp only [bind_eq_ok, pure_eq_ok] at hresult
        obtain ⟨_, -, _, rfl, hresult⟩ := hresult
        rw [ih hkey.2 hresult, Dict.contains_set_of_ne _ hmetadata.symm]
      · split at hresult
        · simp only [bind_eq_ok, pure_eq_ok] at hresult
          obtain ⟨_, rfl, hresult⟩ := hresult
          rw [ih hkey.2 hresult, Dict.contains_pop_other hkey.1]
        · simp only [bind_eq_ok, pure_eq_ok] at hresult
          obtain ⟨_, rfl, hresult⟩ := hresult
          rw [ih hkey.2 hresult, Dict.contains_set_of_ne _ hkey.1]

end ManagedAgents
