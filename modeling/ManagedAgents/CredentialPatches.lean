import ManagedAgents.AuthFields
import ManagedAgents.PurgedSecrets

/-!
# Patches of credentials

An update of a credential changes the fields of its auth object which the patch names
and no others.  Secrets are compared by what they decrypt to, and a ciphertext which is
kept is not encrypted again.
-/

namespace ManagedAgents

open Fallible LabelledRuns ReadCommitted

/-! ## Statement -/

/-- The secrets of the three types. -/
def secretPaths : List AuthPath :=
  [.top "access_token", .top "token", .top "secret_value", .refresh "refresh_token",
   .endpointAuth "client_secret"]

/-- The field is no object whose own fields are merged. -/
def AuthPath.IsField (auth : Dict) (path : AuthPath) : Prop :=
  path = .top "refresh" ∨ path = .refresh "token_endpoint_auth" →
    ∀ fields, path.read auth ≠ .dict fields

/-- The value decrypts to what it did before, and it is the same value if all texts under
secret keys in it were ciphertexts. -/
structure Carried (codec : SecretCodec) (key : String) (before after : Json) : Prop where
  decrypted : walkField (decryptSecret codec) key after =
    walkField (decryptSecret codec) key before
  untouched : FieldHolds MarkedText (key, before) → after = before

/-- What a patch makes of an auth object. -/
structure Patched (codec : SecretCodec) (auth patch after : Dict) : Prop where
  type : Dict.get after "type" = Dict.get auth "type"
  secrets : ∀ path ∈ secretPaths, Leaves auth patch path →
    Carried codec path.key (path.read auth) (path.read after)
  written : ∀ path ∈ secretPaths, ∀ text, path.read patch = .str text →
    startswith text ENCRYPTED_PREFIX = false →
    (path = .endpointAuth "client_secret" →
      AuthPath.read patch (.endpointAuth "type") ≠ .str "none") →
    ∀ draw, walkField (decryptSecret codec) path.key (path.read after) draw =
      .ok (.str text, draw)
  others : ∀ path, path.IsField auth → Leaves auth patch path →
    Carried codec path.key (path.read auth) (path.read after)

/-! ## Encryption before decryption -/

/-- The second transform does the same with or without the first. -/
def Absorbs (second first : String → Encrypting String) : Prop :=
  ∀ text draw encrypted next, first text draw = .ok (encrypted, next) →
    second encrypted = second text

section

variable {first second : String → Encrypting String}

theorem walkField_eq_ok
    {key : String} {child walked : Json} {draw next : ℕ}
    (hwalked : walkField first key child draw = .ok (walked, next)) :
    (∃ text encrypted, isSecretKey key = true ∧ child = .str text ∧
      walked = .str encrypted ∧
        first text draw = .ok (encrypted, next)) ∨
      secretText key child = none ∧ walk first child draw = .ok (walked, next) := by
  unfold walkField at hwalked
  cases htext : secretText key child with
  | some text =>
      rw [htext] at hwalked
      obtain ⟨hkey, rfl⟩ := secretText_eq_some.mp htext
      obtain ⟨encrypted, hencrypted, rfl⟩ := encrypting_map_eq_ok.mp hwalked
      exact .inl ⟨text, encrypted, hkey, rfl, rfl, hencrypted⟩
  | none =>
      rw [htext] at hwalked
      exact .inr ⟨rfl, hwalked⟩

theorem walkField_absorbed
    (habsorbs : Absorbs second first) {key : String} {child walked : Json} {draw next : ℕ}
    (hchild : ∀ {walked : Json} {draw next : ℕ},
      walk first child draw = .ok (walked, next) → walk second walked = walk second child)
    (hwalked : walkField first key child draw = .ok (walked, next)) :
    walkField second key walked = walkField second key child := by
  rcases walkField_eq_ok hwalked with
    ⟨text, encrypted, hkey, rfl, rfl, hencrypted⟩ | ⟨hnone, hwalked⟩
  · unfold walkField
    rw [secretText_eq_some.mpr ⟨hkey, rfl⟩, secretText_eq_some.mpr ⟨hkey, rfl⟩]
    dsimp only
    rw [habsorbs text draw encrypted next hencrypted]
  · unfold walkField
    rw [hnone, secretText_walk hnone hwalked]
    exact hchild hwalked

mutual

theorem walk_absorbed (habsorbs : Absorbs second first) :
    ∀ (value : Json) {walked : Json} {draw next : ℕ},
      walk first value draw = .ok (walked, next) → walk second walked = walk second value
  | .dict fields, walked, draw, next, hwalked => by
      rw [walk] at hwalked
      obtain ⟨others, middle, hothers, hwalked⟩ := encrypting_bind_eq_ok.mp hwalked
      cases hwalked
      rw [walk, walk, walkFields_absorbed habsorbs fields hothers]
  | .list items, walked, draw, next, hwalked => by
      rw [walk] at hwalked
      obtain ⟨others, middle, hothers, hwalked⟩ := encrypting_bind_eq_ok.mp hwalked
      cases hwalked
      rw [walk, walk, walkItems_absorbed habsorbs items hothers]
  | .null, walked, draw, next, hwalked | .bool _, walked, draw, next, hwalked
  | .int _, walked, draw, next, hwalked | .float _, walked, draw, next, hwalked
  | .str _, walked, draw, next, hwalked => by
      rw [walk_leaf _ (by trivial)] at hwalked
      cases hwalked
      rfl

theorem walkItems_absorbed (habsorbs : Absorbs second first) :
    ∀ (items : List Json) {walked : List Json} {draw next : ℕ},
      walkItems first items draw = .ok (walked, next) →
        walkItems second walked = walkItems second items
  | [], walked, draw, next, hwalked => by
      rw [walkItems] at hwalked
      cases hwalked
      rfl
  | item :: rest, walked, draw, next, hwalked => by
      rw [walkItems] at hwalked
      obtain ⟨value, middle, hvalue, hwalked⟩ := encrypting_bind_eq_ok.mp hwalked
      obtain ⟨others, last, hothers, hwalked⟩ := encrypting_bind_eq_ok.mp hwalked
      cases hwalked
      rw [walkItems, walkItems, walk_absorbed habsorbs item hvalue,
        walkItems_absorbed habsorbs rest hothers]

theorem walkFields_absorbed (habsorbs : Absorbs second first) :
    ∀ (fields : List (String × Json)) {walked : List (String × Json)} {draw next : ℕ},
      walkFields first fields draw = .ok (walked, next) →
        walkFields second walked = walkFields second fields
  | [], walked, draw, next, hwalked => by
      rw [walkFields] at hwalked
      cases hwalked
      rfl
  | (key, child) :: rest, walked, draw, next, hwalked => by
      rw [walkFields_cons] at hwalked
      obtain ⟨value, middle, hvalue, hwalked⟩ := encrypting_bind_eq_ok.mp hwalked
      obtain ⟨others, last, hothers, hwalked⟩ := encrypting_bind_eq_ok.mp hwalked
      cases hwalked
      rw [walkFields_cons, walkFields_cons,
        walkField_absorbed habsorbs (walk_absorbed habsorbs child) hvalue,
        walkFields_absorbed habsorbs rest hothers]

end

end

section

variable {transform : String → Encrypting String} {Holds : Json → Prop}

/-- The transform leaves such texts alone where it does not fail. -/
def LeavesTexts (transform : String → Encrypting String) (Holds : Json → Prop) : Prop :=
  ∀ text draw encrypted next, Holds (.str text) →
    transform text draw = .ok (encrypted, next) → encrypted = text

mutual

theorem walk_kept (hleaves : LeavesTexts transform Holds) :
    ∀ (value : Json) {walked : Json} {draw next : ℕ}, Json.SecretsHold Holds value →
      walk transform value draw = .ok (walked, next) → walked = value
  | .dict fields, walked, draw, next, hvalue, hwalked => by
      rw [walk] at hwalked
      obtain ⟨others, middle, hothers, hwalked⟩ := encrypting_bind_eq_ok.mp hwalked
      cases hwalked
      rw [walkFields_kept hleaves fields hvalue hothers]
  | .list items, walked, draw, next, hvalue, hwalked => by
      rw [walk] at hwalked
      obtain ⟨others, middle, hothers, hwalked⟩ := encrypting_bind_eq_ok.mp hwalked
      cases hwalked
      rw [walkItems_kept hleaves items hvalue hothers]
  | .null, walked, draw, next, _, hwalked | .bool _, walked, draw, next, _, hwalked
  | .int _, walked, draw, next, _, hwalked | .float _, walked, draw, next, _, hwalked
  | .str _, walked, draw, next, _, hwalked => by
      rw [walk_leaf _ (by trivial)] at hwalked
      cases hwalked
      rfl

theorem walkItems_kept (hleaves : LeavesTexts transform Holds) :
    ∀ (items : List Json) {walked : List Json} {draw next : ℕ},
      Json.ItemSecretsHold Holds items →
        walkItems transform items draw = .ok (walked, next) → walked = items
  | [], walked, draw, next, _, hwalked => by
      rw [walkItems] at hwalked
      cases hwalked
      rfl
  | item :: rest, walked, draw, next, hitems, hwalked => by
      rw [walkItems] at hwalked
      obtain ⟨value, middle, hvalue, hwalked⟩ := encrypting_bind_eq_ok.mp hwalked
      obtain ⟨others, last, hothers, hwalked⟩ := encrypting_bind_eq_ok.mp hwalked
      cases hwalked
      rw [walk_kept hleaves item hitems.1 hvalue,
        walkItems_kept hleaves rest hitems.2 hothers]

theorem walkFields_kept (hleaves : LeavesTexts transform Holds) :
    ∀ (fields : List (String × Json)) {walked : List (String × Json)} {draw next : ℕ},
      Json.FieldSecretsHold Holds fields →
        walkFields transform fields draw = .ok (walked, next) → walked = fields
  | [], walked, draw, next, _, hwalked => by
      rw [walkFields] at hwalked
      cases hwalked
      rfl
  | (key, child) :: rest, walked, draw, next, hfields, hwalked => by
      rw [walkFields_cons] at hwalked
      obtain ⟨value, middle, hvalue, hwalked⟩ := encrypting_bind_eq_ok.mp hwalked
      obtain ⟨others, last, hothers, hwalked⟩ := encrypting_bind_eq_ok.mp hwalked
      cases hwalked
      rw [walkFields_kept hleaves rest hfields.2 hothers]
      rcases walkField_eq_ok hvalue with ⟨text, encrypted, hkey, rfl, rfl, hencrypted⟩ |
        ⟨hnone, hvalue⟩
      · rw [hleaves text draw encrypted middle (hfields.1.1 hkey) hencrypted]
      · rw [walk_kept hleaves child hfields.1.2 hvalue]

end

theorem walkField_kept
    (hleaves : LeavesTexts transform Holds) {key : String} {child walked : Json}
    {draw next : ℕ} (hchild : FieldHolds Holds (key, child))
    (hwalked : walkField transform key child draw = .ok (walked, next)) :
    walked = child := by
  rcases walkField_eq_ok hwalked with ⟨text, encrypted, hkey, rfl, rfl, hencrypted⟩ |
    ⟨hnone, hwalked⟩
  · rw [hleaves text draw encrypted next (hchild.1 hkey) hencrypted]
  · exact walk_kept hleaves child hchild.2 hwalked

end

section

variable {codec : SecretCodec}

/-- A ciphertext is not encrypted again. -/
theorem encrypt_leavesTexts
    (cipher : SecretCipher) : LeavesTexts (encryptSecret cipher) MarkedText := by
  intro text draw encrypted next htext hencrypted
  unfold encryptSecret at hencrypted
  split at hencrypted
  · cases hencrypted
  · cases hencrypted
    rfl
  · rw [if_pos (htext text rfl)] at hencrypted
    cases hencrypted
    rfl

theorem decrypt_absorbs
    (hsound : codec.Sound) :
    Absorbs (decryptSecret codec) (encryptSecret codec.toSecretCipher) := by
  intro text draw encrypted next hencrypted
  cases hkey : codec.encryptionKey with
  | error error =>
      unfold encryptSecret at hencrypted
      rw [hkey] at hencrypted
      cases hencrypted
  | ok configured =>
      cases configured with
      | none =>
          unfold encryptSecret at hencrypted
          rw [hkey] at hencrypted
          cases hencrypted
          rfl
      | some key =>
          cases hmarked : startswith text ENCRYPTED_PREFIX with
          | true =>
              rw [encryptSecret_marked hkey hmarked draw] at hencrypted
              cases hencrypted
              rfl
          | false =>
              obtain ⟨other, hother, -, hdecrypted⟩ :=
                encryptSecret_unmarked hsound hkey hmarked draw
              obtain ⟨rfl, -⟩ := Prod.mk.inj
                (Except.ok.inj (hencrypted.symm.trans hother))
              funext last
              rw [hdecrypted]
              unfold decryptSecret
              rw [hmarked]
              rfl

end

/-! ## Settled auth objects -/

/-- A token endpoint auth has a type and, if that is another one than `none`, a secret. -/
structure SettledEndpoint (endpointAuth : Dict) : Prop where
  secret : Dict.get endpointAuth "type" = .str "none" →
    Dict.get endpointAuth "client_secret" = .null
  others : ∀ key, key ≠ "type" → key ≠ "client_secret" →
    Dict.get endpointAuth key = .null

/-- The auth object has been checked; its secrets may be purged since. -/
structure SettledAuth (auth : Dict) : Prop where
  type : ∃ authType ∈ CREDENTIAL_AUTH_TYPES, Dict.get auth "type" = .str authType
  networking : Dict.get auth "type" = .str "environment_variable" →
    ∃ networking, Dict.get auth "networking" = .dict networking ∧
      normalizeCredentialNetworking (.dict networking) = .ok networking
  expires : Dict.get auth "type" = .str "mcp_oauth" →
    Dict.get auth "expires_at" = .null ∨ ∃ text, Dict.get auth "expires_at" = .str text
  refresh : Dict.get auth "type" = .str "mcp_oauth" →
    Dict.get auth "refresh" = .null ∨ ∃ refresh endpointAuth,
      Dict.get auth "refresh" = .dict refresh ∧
        Dict.get refresh "token_endpoint_auth" = .dict endpointAuth ∧
          SettledEndpoint endpointAuth

theorem CheckedEndpoint.settled
    {before after : Dict} (hchecked : CheckedEndpoint before after) :
    SettledEndpoint after where
  secret := by
    intro htype
    rw [hchecked.secret, if_pos (hchecked.type.symm.trans htype)]
  others := hchecked.others

/-- Networking that was checked is checked again without a change. -/
theorem networking_cases
    {value : Json} {networking : Dict}
    (hnetworking : normalizeCredentialNetworking value = .ok networking) :
    networking = [("type", .str "unrestricted")] ∨
      ∃ hosts, networking = [("type", .str "limited"), ("allowed_hosts", .list hosts)] ∧
        ¬hosts.length > 16 ∧ hosts.all isBareHostname = true := by
  unfold normalizeCredentialNetworking at hnetworking
  split at hnetworking
  · split at hnetworking
    · cases hnetworking
      exact .inl rfl
    · split at hnetworking
      · cases hnetworking
      · split at hnetworking
        next hosts hhosts =>
          split at hnetworking
          · cases hnetworking
          next hfew =>
            split at hnetworking
            next hbare =>
              cases hnetworking
              exact .inr ⟨hosts, rfl, hfew, hbare⟩
            next => cases hnetworking
        next => cases hnetworking
  · cases hnetworking

theorem networking_again
    {value : Json} {networking : Dict}
    (hnetworking : normalizeCredentialNetworking value = .ok networking) :
    normalizeCredentialNetworking (.dict networking) = .ok networking := by
  rcases networking_cases hnetworking with rfl | ⟨hosts, rfl, hfew, hbare⟩
  · rfl
  · simp [normalizeCredentialNetworking, Dict.get, hfew, hbare]

theorem CheckedAuth.settled
    {py : Interpreter} {auth normal : Dict} (hchecked : CheckedAuth py auth normal) :
    SettledAuth normal := by
  cases hchecked with
  | environmentVariable networking htype hothers hgiven hnetworking =>
      have hsame := (hothers "type" (by decide)).trans htype
      refine ⟨⟨_, by simp [CREDENTIAL_AUTH_TYPES], hsame⟩, fun _ => ?_, ?_, ?_⟩
      · exact ⟨networking, hnetworking, networking_again hgiven⟩
      · simp [hsame]
      · simp [hsame]
  | staticBearer htype hothers =>
      have hsame := (hothers "type").trans htype
      refine ⟨⟨_, by simp [CREDENTIAL_AUTH_TYPES], hsame⟩, ?_, ?_, ?_⟩ <;> simp [hsame]
  | mcpOauth htype hothers hexpires hrefresh =>
      have hsame := (hothers "type" (by decide) (by decide)).trans htype
      refine ⟨⟨_, by simp [CREDENTIAL_AUTH_TYPES], hsame⟩, ?_, fun _ => ?_, fun _ => ?_⟩
      · simp [hsame]
      · rw [hexpires]
        split
        · exact .inl rfl
        · exact .inr ⟨_, rfl⟩
      · rcases hrefresh with ⟨-, hnull⟩ | ⟨before, after, -, hafter, hrefresh⟩
        · exact .inl hnull
        · obtain ⟨given, checked, -, hchecked, hendpoint⟩ := hrefresh.endpointAuth
          exact .inr ⟨after, checked, hafter, hchecked, hendpoint.settled⟩

section

variable {transform : String → Encrypting String} {draw next : ℕ}

theorem walkField_leaf
    {key : String} {child walked : Json} (hkey : isSecretKey key = false)
    (hleaf : child.IsLeaf)
    (hwalked : walkField transform key child draw = .ok (walked, next)) :
    walked = child := by
  rw [walkField_plain hkey, walk_leaf child hleaf] at hwalked
  cases hwalked
  rfl

/-- A text of a plain field was there before the walk. -/
theorem walkField_str
    {key text : String} {child : Json} (hkey : isSecretKey key = false)
    (hwalked : walkField transform key child draw = .ok (.str text, next)) :
    child = .str text := by
  rw [walkField_plain hkey] at hwalked
  exact (walk_eq_leaf (isLeaf_str text) hwalked).mp rfl

theorem walkField_null_eq
    {key : String} {walked : Json}
    (hwalked : walkField transform key .null draw = .ok (walked, next)) :
    walked = .null := by
  rw [walkField_null] at hwalked
  cases hwalked
  rfl

theorem walk_dict
    {fields : Dict} {walked : Json}
    (hwalked : walk transform (.dict fields) draw = .ok (walked, next)) :
    ∃ others last, walked = .dict others ∧
      walkFields transform fields draw = .ok (others, last) := by
  rw [walk] at hwalked
  obtain ⟨others, last, hothers, hwalked⟩ := encrypting_bind_eq_ok.mp hwalked
  cases hwalked
  exact ⟨others, _, rfl, hothers⟩

theorem isSecretKey_type : isSecretKey "type" = false := isSecretKey_plain _ (by simp)

theorem SettledEndpoint.walk
    {before after : Dict} (hsettled : SettledEndpoint before)
    (hwalked : walkFields transform before draw = .ok (after, next)) :
    SettledEndpoint after := by
  constructor
  · intro htype
    obtain ⟨first, last, hfirst⟩ := walkFields_get hwalked "type"
    rw [htype] at hfirst
    have hbefore := walkField_str isSecretKey_type hfirst
    obtain ⟨start, stop, hsecret⟩ := walkFields_get hwalked "client_secret"
    rw [hsettled.secret hbefore] at hsecret
    exact walkField_null_eq hsecret
  · intro key hkey hother
    obtain ⟨first, last, hfirst⟩ := walkFields_get hwalked key
    rw [hsettled.others key hkey hother] at hfirst
    exact walkField_null_eq hfirst

/-- Encrypting an auth object keeps it settled. -/
theorem SettledAuth.walk
    {auth walked : Dict} (hsettled : SettledAuth auth)
    (hwalked : walkFields transform auth draw = .ok (walked, next)) :
    SettledAuth walked ∧ Dict.get walked "type" = Dict.get auth "type" := by
  have hexpiresKey : isSecretKey "expires_at" = false := isSecretKey_plain _ (by simp)
  have hnetworkingKey : isSecretKey "networking" = false := isSecretKey_plain _ (by simp)
  obtain ⟨authType, hmem, htype⟩ := hsettled.type
  have hsame : Dict.get walked "type" = Dict.get auth "type" := by
    obtain ⟨first, last, hfirst⟩ := walkFields_get hwalked "type"
    rw [htype] at hfirst
    rw [walkField_leaf isSecretKey_type (isLeaf_str _) hfirst, htype]
  refine ⟨⟨⟨authType, hmem, hsame.trans htype⟩, ?_, ?_, ?_⟩, hsame⟩
  · rw [hsame]
    intro henvironment
    obtain ⟨networking, hnetworking, hagain⟩ := hsettled.networking henvironment
    obtain ⟨first, last, hfirst⟩ := walkFields_get hwalked "networking"
    have hplain : Json.SecretsHold (fun _ => False) (.dict networking) :=
      Json.secretsHold_dict.mpr (normalizeCredentialNetworking_secretsHold hagain)
    rw [hnetworking, walkField_plain hnetworkingKey,
      walk_eq_self (fun _ hfalse => hfalse.elim) _ hplain, Except.ok.injEq,
      Prod.mk.injEq] at hfirst
    exact ⟨networking, hfirst.1.symm, hagain⟩
  · rw [hsame]
    intro hmcp
    obtain ⟨first, last, hfirst⟩ := walkFields_get hwalked "expires_at"
    rcases hsettled.expires hmcp with hnull | ⟨text, htext⟩
    · rw [hnull] at hfirst
      exact .inl (walkField_null_eq hfirst)
    · rw [htext] at hfirst
      exact .inr ⟨text, walkField_leaf hexpiresKey (isLeaf_str _) hfirst⟩
  · rw [hsame]
    intro hmcp
    obtain ⟨first, last, hfirst⟩ := walkFields_get hwalked "refresh"
    rcases hsettled.refresh hmcp with hnull | ⟨refresh, endpointAuth, hrefresh, hendpoint,
      hinner⟩
    · rw [hnull] at hfirst
      exact .inl (walkField_null_eq hfirst)
    · rw [hrefresh, walkField_plain isSecretKey_refresh] at hfirst
      obtain ⟨others, stop, hothers, hfields⟩ := walk_dict hfirst
      obtain ⟨start, finish, hstart⟩ := walkFields_get hfields "token_endpoint_auth"
      rw [hendpoint, walkField_plain isSecretKey_endpointAuth] at hstart
      obtain ⟨inner, done, hdone, hwalk⟩ := walk_dict hstart
      exact .inr ⟨others, inner, hothers, hdone, hinner.walk hwalk⟩

end

/-! ## Purged auth objects -/

theorem purgeSecretItems_hostnames
    {hosts : List Json} (hbare : hosts.all isBareHostname = true) :
    purgeSecretItems hosts = hosts := by
  induction hosts with
  | nil => rfl
  | cons host rest ih =>
      rw [List.all_cons, Bool.and_eq_true] at hbare
      cases host with
      | str name => rw [purgeSecretItems, purgeSecretValues, ih hbare.2] <;> simp
      | null | bool | int | float | list | dict => cases hbare.1

theorem purgeSecretFields_networking
    {networking : Dict} {value : Json}
    (hnetworking : normalizeCredentialNetworking value = .ok networking) :
    purgeSecretFields networking = networking := by
  have hhosts : isSecretKey "allowed_hosts" = false := isSecretKey_plain _ (by simp)
  rcases networking_cases hnetworking with rfl | ⟨hosts, rfl, -, hbare⟩
  · simp [purgeSecretFields, purgeSecretValues, isSecretKey_type]
  · simp [purgeSecretFields, purgeSecretValues, isSecretKey_type, hhosts,
      purgeSecretItems_hostnames hbare]

theorem purgeSecretValues_str
    {value : Json} {text : String} (htext : purgeSecretValues value = .str text) :
    value = .str text := by
  cases value with
  | dict | list => simp [purgeSecretValues] at htext
  | null | bool | int | float => simp [purgeSecretValues] at htext
  | str other => simpa [purgeSecretValues] using htext

theorem SettledEndpoint.purge
    {endpointAuth : Dict} (hsettled : SettledEndpoint endpointAuth) :
    SettledEndpoint (purgeSecretFields endpointAuth) := by
  constructor
  · intro htype
    rw [purgeSecretFields_plain isSecretKey_type] at htype
    rw [purgeSecretFields_get, hsettled.secret (purgeSecretValues_str htype)]
    simp [purgeSecretValues]
  · intro key hkey hother
    rw [purgeSecretFields_get, hsettled.others key hkey hother]
    simp [purgeSecretValues]

/-- A purge keeps an auth object settled. -/
theorem SettledAuth.purge
    {auth : Dict}
    (hsettled : SettledAuth auth) : SettledAuth (purgeSecretFields auth) := by
  have hexpiresKey : isSecretKey "expires_at" = false := isSecretKey_plain _ (by simp)
  have hnetworkingKey : isSecretKey "networking" = false := isSecretKey_plain _ (by simp)
  obtain ⟨authType, hmem, htype⟩ := hsettled.type
  have hsame : Dict.get (purgeSecretFields auth) "type" = Dict.get auth "type" := by
    rw [purgeSecretFields_plain isSecretKey_type, htype]
    simp [purgeSecretValues]
  refine ⟨⟨authType, hmem, hsame.trans htype⟩, ?_, ?_, ?_⟩
  · rw [hsame, purgeSecretFields_plain hnetworkingKey]
    intro henvironment
    obtain ⟨networking, hnetworking, hagain⟩ := hsettled.networking henvironment
    refine ⟨networking, ?_, hagain⟩
    rw [hnetworking, purgeSecretValues, purgeSecretFields_networking hagain]
  · rw [hsame, purgeSecretFields_plain hexpiresKey]
    intro hmcp
    rcases hsettled.expires hmcp with hnull | ⟨text, htext⟩
    · exact .inl (by simp [hnull, purgeSecretValues])
    · exact .inr ⟨text, by simp [htext, purgeSecretValues]⟩
  · rw [hsame, purgeSecretFields_plain isSecretKey_refresh]
    intro hmcp
    rcases hsettled.refresh hmcp with hnull | ⟨refresh, endpointAuth, hrefresh, hendpoint,
      hinner⟩
    · exact .inl (by simp [hnull, purgeSecretValues])
    · refine .inr ⟨purgeSecretFields refresh, purgeSecretFields endpointAuth, ?_, ?_,
        hinner.purge⟩
      · rw [hrefresh, purgeSecretValues]
      · rw [purgeSecretFields_plain isSecretKey_endpointAuth, hendpoint,
          purgeSecretValues]

/-! ## Fields of checked objects -/

section

variable {py : Interpreter} {auth patch merged normal : Dict}

/-- In a settled auth object of OAuth the token endpoint auth has two fields. -/
theorem SettledAuth.endpoint
    (hsettled : SettledAuth auth) (hmcp : Dict.get auth "type" = .str "mcp_oauth") :
    (AuthPath.read auth (.endpointAuth "type") = .str "none" →
      AuthPath.read auth (.endpointAuth "client_secret") = .null) ∧
    ∀ key, key ≠ "type" → key ≠ "client_secret" →
      AuthPath.read auth (.endpointAuth key) = .null := by
  simp only [AuthPath.read]
  rcases hsettled.refresh hmcp with hnull | ⟨refresh, endpointAuth, hrefresh, hendpoint,
    hinner⟩
  · rw [hnull]
    exact ⟨fun _ => rfl, fun _ _ _ => rfl⟩
  · rw [hrefresh, Json.get_dict, hendpoint]
    exact ⟨hinner.secret, hinner.others⟩

/-- A field of the token endpoint auth is left only if its type stays. -/
theorem merged_type_of_leaves
    (hpatch : Dict.Keyed patch) {key text : String}
    (hleaves : Leaves auth patch (.endpointAuth key))
    (htype : AuthPath.read (patch.foldl mergeAuthField auth) (.endpointAuth "type") =
      .str text) :
    AuthPath.read auth (.endpointAuth "type") = .str text := by
  rcases hleaves with habsent | ⟨given, hgiven, hnull | ⟨inner, hinner, -, htypes⟩⟩
  · rwa [@merged_of_leaves auth patch hpatch (.endpointAuth "type") (.inl habsent)]
      at htype
  · rwa [@merged_of_leaves auth patch hpatch (.endpointAuth "type")
      (.inr ⟨given, hgiven, .inl hnull⟩)] at htype
  · rw [merged_endpoint_type hpatch hgiven hinner] at htype
    rw [htype] at htypes
    cases hheld : AuthPath.read auth (.endpointAuth "type") <;>
      simp_all [Json.equal, Json.number]

/-- The check keeps the fields which the patch leaves. -/
theorem checked_of_leaves
    (hpatch : Dict.Keyed patch) (hsettled : SettledAuth auth)
    (htype : Dict.get (patch.foldl mergeAuthField auth) "type" = Dict.get auth "type")
    (hchecked : CheckedAuth py (patch.foldl mergeAuthField auth) normal) {path : AuthPath}
    (hfield : path.IsField auth) (hleaves : Leaves auth patch path) :
    path.read normal = path.read auth := by
  have hmerged := merged_of_leaves hpatch hleaves
  have hunchanged : (∀ key, path = .top key → Dict.get normal key =
      Dict.get (patch.foldl mergeAuthField auth) key) →
      ((∀ key, path ≠ .top key) → Dict.get normal "refresh" =
        Dict.get (patch.foldl mergeAuthField auth) "refresh") →
      path.read normal = path.read auth := by
    intro htop hrefresh
    rw [← hmerged]
    cases path with
    | top key => exact htop key rfl
    | refresh key => simp only [AuthPath.read, hrefresh (by simp)]
    | endpointAuth key => simp only [AuthPath.read, hrefresh (by simp)]
  cases hchecked with
  | staticBearer _ hothers =>
      exact hunchanged (fun key _ => hothers key) fun _ => hothers _
  | environmentVariable networking henvironment hothers hgiven hnetworking =>
      refine hunchanged (fun key hpath => ?_) fun _ => hothers _ (by decide)
      by_cases hkey : key = "networking"
      · subst hpath hkey
        obtain ⟨held, hheld, hagain⟩ := hsettled.networking (htype ▸ henvironment)
        simp only [AuthPath.read] at hmerged
        rw [hheld] at hmerged
        have htruthy : (Json.dict held).truthy = true := by
          rcases networking_cases hagain with rfl | ⟨hosts, rfl, -⟩ <;> rfl
        rw [hmerged, Json.or, if_pos htruthy, hagain] at hgiven
        cases hgiven
        rw [hnetworking, hmerged]
      · exact hothers key hkey
  | mcpOauth hmcp hothers hexpires hrefresh =>
      have hauth : Dict.get auth "type" = .str "mcp_oauth" := htype ▸ hmcp
      cases path with
      | top key =>
          simp only [AuthPath.read] at hmerged ⊢
          by_cases hkey : key = "expires_at"
          · subst hkey
            rw [hexpires, hmerged]
            rcases hsettled.expires hauth with hnull | ⟨text, htext⟩
            · rw [hnull, if_pos rfl]
            · rw [htext, if_neg (by simp)]
              rfl
          · by_cases hother : key = "refresh"
            · subst hother
              have hnull : Dict.get auth "refresh" = .null := by
                rcases hsettled.refresh hauth with hnull | ⟨refresh, -, hdict, -⟩
                · exact hnull
                · exact absurd hdict (hfield (.inl rfl) refresh)
              rw [hnull] at hmerged ⊢
              rcases hrefresh with ⟨-, hnormal⟩ | ⟨before, after, hbefore, -⟩
              · exact hnormal
              · rw [hmerged] at hbefore
                cases hbefore
            · rw [hothers key hkey hother, hmerged]
      | refresh key =>
          rw [← hmerged]
          simp only [AuthPath.read] at hmerged ⊢
          rcases hrefresh with ⟨hbefore, hafter⟩ | ⟨before, after, hbefore, hafter, hkept⟩
          · rw [hbefore, hafter]
          · rw [hbefore, Json.get_dict] at hmerged
            rw [hbefore, hafter, Json.get_dict, Json.get_dict]
            by_cases hkey : key = "token_endpoint_auth"
            · subst hkey
              obtain ⟨given, checked, hgiven, -⟩ := hkept.endpointAuth
              exact absurd (hmerged.symm.trans hgiven) (hfield (.inr rfl) given)
            · exact hkept.others key hkey
      | endpointAuth key =>
          have htypes :=
            fun text => @merged_type_of_leaves auth patch hpatch key text hleaves
          have hendpoint := hsettled.endpoint hauth
          simp only [AuthPath.read] at hmerged htypes ⊢
          rcases hrefresh with ⟨hbefore, hafter⟩ | ⟨before, after, hbefore, hafter, hkept⟩
          · rw [hbefore] at hmerged
            rw [hafter, ← hmerged]
          · obtain ⟨given, checked, hgiven, hresult, hinner⟩ := hkept.endpointAuth
            rw [hbefore, Json.get_dict, hgiven, Json.get_dict] at hmerged
            rw [hbefore, Json.get_dict, hgiven, Json.get_dict] at htypes
            rw [hafter, Json.get_dict, hresult, Json.get_dict]
            by_cases hkey : key = "type"
            · subst hkey
              exact hinner.type.trans hmerged
            · by_cases hsecret : key = "client_secret"
              · subst hsecret
                rw [hinner.secret]
                split
                next hnone => exact (hendpoint.1 (htypes _ hnone)).symm
                next => exact hmerged
              · rw [hinner.others key hkey hsecret]
                exact (hendpoint.2 key hkey hsecret).symm

/-- The check keeps the secrets which the patch brings. -/
theorem checked_of_text
    (hpatch : Dict.Keyed patch)
    (hchecked : CheckedAuth py (patch.foldl mergeAuthField auth) normal) {path : AuthPath}
    (hpath : path ∈ secretPaths) {text : String} (htext : path.read patch = .str text)
    (hkept : path = .endpointAuth "client_secret" →
      AuthPath.read patch (.endpointAuth "type") ≠ .str "none") :
    path.read normal = .str text := by
  have hmerged := @merged_of_text auth patch hpatch path text htext
  have htop : ∀ key, path = .top key →
      key ≠ "networking" ∧ key ≠ "expires_at" ∧ key ≠ "refresh" := by
    rintro key rfl
    simp only [secretPaths, List.mem_cons, List.not_mem_nil, or_false, reduceCtorEq,
      AuthPath.top.injEq] at hpath
    rcases hpath with rfl | rfl | rfl <;> decide
  have hunchanged : (∀ key, path = .top key → Dict.get normal key =
      Dict.get (patch.foldl mergeAuthField auth) key) →
      Dict.get normal "refresh" = Dict.get (patch.foldl mergeAuthField auth) "refresh" →
      path.read normal = .str text := by
    intro hsame hrefresh
    rw [← hmerged]
    cases path with
    | top key => exact hsame key rfl
    | refresh key => simp only [AuthPath.read, hrefresh]
    | endpointAuth key => simp only [AuthPath.read, hrefresh]
  cases hchecked with
  | staticBearer _ hothers => exact hunchanged (fun key _ => hothers key) (hothers _)
  | environmentVariable networking _ hothers _ _ =>
      exact hunchanged (fun key hkey => hothers key (htop key hkey).1)
        (hothers _ (by decide))
  | mcpOauth _ hothers _ hrefresh =>
      cases path with
      | top key =>
          rw [← hmerged]
          exact hothers key (htop key rfl).2.1 (htop key rfl).2.2
      | refresh key =>
          obtain rfl : key = "refresh_token" := by simpa [secretPaths] using hpath
          simp only [AuthPath.read] at hmerged ⊢
          rcases hrefresh with ⟨hbefore, -⟩ | ⟨before, after, hbefore, hafter, hsame⟩
          · rw [hbefore] at hmerged
            cases hmerged
          · rw [hbefore] at hmerged
            rw [hafter]
            exact (hsame.others _ (by decide)).trans hmerged
      | endpointAuth key =>
          obtain rfl : key = "client_secret" := by simpa [secretPaths] using hpath
          simp only [AuthPath.read] at htext
          obtain ⟨inner, hinner, htext⟩ := get_eq_str htext
          obtain ⟨given, hgiven, hinner⟩ := get_eq_dict hinner
          have hother := hkept rfl
          have htypes := @merged_endpoint_type auth patch hpatch given inner hgiven hinner
          simp only [AuthPath.read, hgiven, Json.get_dict, hinner] at hother
          simp only [AuthPath.read] at hmerged htypes ⊢
          rcases hrefresh with ⟨hbefore, -⟩ | ⟨before, after, hbefore, hafter, hsame⟩
          · rw [hbefore] at hmerged
            cases hmerged
          · obtain ⟨before', checked, hbefore', hresult, hendpoint⟩ := hsame.endpointAuth
            rw [hbefore, Json.get_dict, hbefore', Json.get_dict] at hmerged htypes
            rw [hafter, Json.get_dict, hresult, Json.get_dict, hendpoint.secret,
              if_neg (by rwa [htypes])]
            exact hmerged

end

/-! ## Stored credentials -/

def HoldsSettledAuth (data : Dict) : Prop :=
  ∃ auth, Dict.get data "auth" = .dict auth ∧ SettledAuth auth

section

variable {py : Interpreter} {cipher : SecretCipher}

/-- The auth object which is stored is a checked one, encrypted. -/
theorem normalizeCredentialData_auth
    {data result : Dict} (hresult : normalizeCredentialData py cipher data = .ok result) :
    ∃ auth normal encrypted next, CheckedAuth py auth normal ∧
      encryptSecretValues cipher normal 0 = .ok (encrypted, next) ∧
        Dict.get result "auth" = .dict encrypted ∧
          ∀ given, Dict.get data "auth" = .dict given → auth = given := by
  obtain ⟨name, auth, normal, encrypted, metadata, hsteps⟩ :=
    normalizeCredentialData_steps hresult
  obtain ⟨next, hencrypted⟩ := hsteps.sealed
  have hauth := hsteps.given
  refine ⟨auth, normal, encrypted, next, normalizeCredentialAuth_checked hsteps.checked,
    hencrypted, ?_, ?_⟩
  · rw [hsteps.stored, Dict.get_set_other _ (by decide), Dict.get_set_same]
  · intro given hgiven
    rw [← withDisplayName_auth data name] at hgiven
    have hcontains := Dict.contains_of_get
      (by simp [hgiven] : Dict.get (withDisplayName data name) "auth" ≠ .null)
    rw [withAuth, if_pos hcontains, hgiven, Json.dict.injEq] at hauth
    exact hauth.symm

theorem normalizeCredentialData_settled
    {data result : Dict} (hresult : normalizeCredentialData py cipher data = .ok result) :
    HoldsSettledAuth result := by
  obtain ⟨auth, normal, encrypted, next, hchecked, hencrypted, hstored, -⟩ :=
    normalizeCredentialData_auth hresult
  exact ⟨encrypted, hstored, (hchecked.settled.walk hencrypted).1⟩

theorem newData_settled
    {settings : EncryptionSettings} {call : CredentialCall} {held : Resource}
    {data : Dict}
    (hheld : HoldsSettledAuth held.data) (hdata : NewData py settings call held data) :
    HoldsSettledAuth data := by
  have hauthKey : isSecretKey "auth" = false := isSecretKey_plain _ (by simp)
  obtain ⟨auth, hauth, hsettled⟩ := hheld
  unfold NewData at hdata
  cases hrequest : call.request <;> simp only [hrequest] at hdata
  case update vaultId credentialId body =>
    obtain ⟨merged, -, hnormal⟩ := hdata
    exact normalizeCredentialData_settled hnormal
  case archive | delete =>
    refine ⟨purgeSecretFields auth, ?_, hsettled.purge⟩
    rw [hdata, purgeCredentialSecretData, Dict.get_set_other _ (by decide),
      purgeSecretFields_plain hauthKey, hauth, purgeSecretValues]
  case validate vaultId credentialId =>
    unfold validatedCredentialData at hdata
    simp only [bind_eq_ok, pure_eq_ok] at hdata
    obtain ⟨metadata, -, rfl⟩ := hdata
    exact ⟨auth, by rw [Dict.get_set_other _ (by decide), hauth], hsettled⟩

end

/-! ## Runs under changing settings -/

/-- The key may be configured or changed between two calls. -/
def rekeyedBody (py : Interpreter) (call : EncryptionSettings × CredentialCall)
    (view : View) (current : List Resource) : Option (List Resource) :=
  call.2.body py call.1 view current

def rekeyedStep (py : Interpreter) (world : CredentialWorld)
    (label : (EncryptionSettings × CredentialCall) × List ℕ) : Option CredentialWorld :=
  ReadCommitted.step (rekeyedBody py) world label

structure SettledRows (rows : List Resource) : Prop where
  ids : (rows.map ManagedResource.id).Nodup
  credentials : ∀ row ∈ rows, IsCredential row → HoldsSettledAuth row.data

section

variable {py : Interpreter}

theorem SettledRows.body
    {settings : EncryptionSettings} {call : CredentialCall} {view : View}
    {current next : List Resource} (hview : SettledRows (view 0))
    (hcurrent : SettledRows current)
    (hbody : call.body py settings view current = some next) : SettledRows next := by
  refine ⟨call.ids hcurrent.ids hbody, fun row hrow htype => ?_⟩
  cases CredentialCall.rowChange hbody hrow htype with
  | kept hrow => exact hcurrent.credentials row hrow htype
  | created vaultId body hrequest hdata hlive =>
      exact normalizeCredentialData_settled hdata
  | rewritten held old data hheld haddressed hcredential hold hid holdType hdata hwritten
      hmarks =>
      rcases hwritten with hdata' | ⟨-, hsame⟩
      · rw [hdata']
        exact newData_settled (hview.credentials held hheld hcredential) hdata
      · rw [hsame]
        exact hcurrent.credentials old hold holdType

theorem settledRows_of_run
    {start : List Resource} (hids : (start.map ManagedResource.id).Nodup)
    (hstart : ∀ row ∈ start, ¬IsCredential row) {last : CredentialWorld}
    {calls : List ((EncryptionSettings × CredentialCall) × List ℕ)}
    (hrun : run (rekeyedStep py) { current := start, past := [] } calls = some last) :
    SettledRows last.current := by
  have hordered : last.Ordered SettledRows (fun _ _ => True) := by
    refine run_ordered (fun _ => trivial) (fun _ _ _ _ _ => trivial) ?_ ?_
      (allSteps_true _ _) hrun
    · intro world call ages next _ hviews _ _ hcurrent hbody
      exact ⟨SettledRows.body (hviews 0) hcurrent hbody, trivial⟩
    · constructor
      · intro state hstate
        obtain rfl : state = start := by simpa [Timeline.history] using hstate
        exact ⟨hids, fun row hrow htype => absurd htype (hstart row hrow)⟩
      · simp [Timeline.history]
  exact hordered.states _ List.mem_cons_self

end

/-! ## Accepted patches -/

section

variable {py : Interpreter} {codec : SecretCodec} {auth patch : Dict}

/-- The merge of an accepted patch does not change the type. -/
theorem mergeCredentialAuth_eq_ok
    (hpatch : Dict.Keyed patch) (hsettled : SettledAuth auth) {merged : Dict}
    (hmerged : mergeCredentialAuth (.dict auth) patch = .ok merged) :
    Dict.get patch "type" = Dict.get auth "type" ∧
      merged = patch.foldl mergeAuthField auth ∧
        Dict.get merged "type" = Dict.get auth "type" := by
  obtain ⟨held, hmem, hheld⟩ := hsettled.type
  have htruthy : (Json.str held).truthy = true := by
    simp only [CREDENTIAL_AUTH_TYPES, List.mem_cons, List.not_mem_nil, or_false] at hmem
    rcases hmem with rfl | rfl | rfl <;> rfl
  have hdict : toDict (.dict auth) = .ok auth := by
    cases auth with
    | nil => cases hheld
    | cons field rest => rfl
  unfold mergeCredentialAuth at hmerged
  simp only [bind_eq_ok, pure_eq_ok, raiseIf_eq_ok] at hmerged
  obtain ⟨authType, hauthType, existing, hexisting, -, hsame, rfl⟩ := hmerged
  rw [hdict, Except.ok.injEq] at hexisting
  subst hexisting
  have hgiven := (memberText_eq_ok hauthType).1
  rw [hheld] at hsame ⊢
  have htype : Json.str held = .str authType := by
    by_contra hne
    exact hsame ⟨htruthy, hne⟩
  exact ⟨hgiven.trans htype.symm, rfl,
    (mergeAuth_text hpatch.distinct hgiven).trans htype.symm⟩

theorem carried_of_walk
    (hsound : codec.Sound) {key : String} {before after : Json} {draw next : ℕ}
    (hwalked : walkField (encryptSecret codec.toSecretCipher) key before draw =
      .ok (after, next)) : Carried codec key before after :=
  ⟨walkField_absorbed (decrypt_absorbs hsound)
    (walk_absorbed (decrypt_absorbs hsound) before) hwalked,
    fun hmarked => walkField_kept (encrypt_leavesTexts _) hmarked hwalked⟩

theorem carried_refl (key : String) (value : Json) : Carried codec key value value :=
  ⟨rfl, fun _ => rfl⟩

theorem secretPaths_isField
    {path : AuthPath} (hpath : path ∈ secretPaths) : path.IsField auth := by
  rintro (rfl | rfl) <;> simp [secretPaths] at hpath

theorem secretPaths_secret
    {path : AuthPath} (hpath : path ∈ secretPaths) : isSecretKey path.key = true := by
  have hall : ∀ path ∈ secretPaths, isSecretKey path.key = true := by decide
  exact hall path hpath

/-- A text which is no ciphertext decrypts to itself. -/
theorem decrypted_unmarked
    {key text : String} (hkey : isSecretKey key = true)
    (hunmarked : startswith text ENCRYPTED_PREFIX = false) (draw : ℕ) :
    walkField (decryptSecret codec) key (.str text) draw = .ok (.str text, draw) := by
  unfold walkField
  rw [secretText_eq_some.mpr ⟨hkey, rfl⟩]
  refine encrypting_map_eq_ok.mpr ⟨text, ?_, rfl⟩
  unfold decryptSecret
  rw [hunmarked]
  rfl

/-- The new auth object is what the patch makes of the old one. -/
theorem patched_of_merge
    {py : Interpreter} (hsound : codec.Sound) (hpatch : Dict.Keyed patch)
    (hsettled : SettledAuth auth)
    (htype : Dict.get (patch.foldl mergeAuthField auth) "type" = Dict.get auth "type")
    {normal encrypted : Dict} {next : ℕ}
    (hchecked : CheckedAuth py (patch.foldl mergeAuthField auth) normal)
    (hencrypted : encryptSecretValues codec.toSecretCipher normal 0 =
      .ok (encrypted, next)) : Patched codec auth patch encrypted := by
  have hothers : ∀ path, path.IsField auth → Leaves auth patch path →
      Carried codec path.key (path.read auth) (path.read encrypted) := by
    intro path hfield hleaves
    obtain ⟨first, last, hwalked⟩ := walkFields_read hencrypted path
    rw [checked_of_leaves hpatch hsettled htype hchecked hfield hleaves] at hwalked
    exact carried_of_walk hsound hwalked
  refine ⟨?_, fun path hpath => hothers path (secretPaths_isField hpath), ?_, hothers⟩
  · have hleft : Dict.get normal "type" = Dict.get auth "type" := by
      rw [← htype]
      cases hchecked with
      | environmentVariable networking _ hsame _ _ => exact hsame _ (by decide)
      | staticBearer _ hsame => exact hsame _
      | mcpOauth _ hsame _ _ => exact hsame _ (by decide) (by decide)
    rw [(hchecked.settled.walk hencrypted).2, hleft]
  · intro path hpath text htext hunmarked hkept draw
    have hnormal := checked_of_text hpatch hchecked hpath htext hkept
    obtain ⟨first, last, hwalked⟩ := walkFields_read hencrypted path
    rw [hnormal] at hwalked
    rw [(carried_of_walk hsound hwalked).decrypted]
    exact decrypted_unmarked (secretPaths_secret hpath) hunmarked draw

/-! ## Rows that are not written -/

theorem equal_get_str
    {left right : Dict} {key text : String} (hequal : Dict.equal left right = true)
    (htext : Dict.get left key = .str text) : Dict.get right key = .str text := by
  have hpresent : Dict.get left key ≠ .null := by simp [htext]
  rcases Dict.get_equal_of_equal hequal hpresent with hsame | hsame
  · rw [← hsame, htext]
  · rw [htext] at hsame
    simpa [Json.equal] using hsame

theorem equal_get_dict
    {left right fields : Dict} {key : String} (hequal : Dict.equal left right = true)
    (hfields : Dict.get left key = .dict fields) :
    ∃ others, Dict.get right key = .dict others ∧ Dict.equal fields others = true := by
  have hpresent : Dict.get left key ≠ .null := by simp [hfields]
  rcases Dict.get_equal_of_equal hequal hpresent with hsame | hsame
  · exact ⟨fields, by rw [← hsame, hfields], Dict.equal_self fields⟩
  · rw [hfields] at hsame
    cases hright : Dict.get right key with
    | dict others =>
        rw [hright] at hsame
        exact ⟨others, rfl, by rw [Dict.equal, hsame, Bool.or_true]⟩
    | null | bool | int | float | str | list =>
        rw [hright] at hsame
        simp [Json.equal] at hsame

theorem equal_read_str
    {left right : Dict} {path : AuthPath} {text : String}
    (hequal : Dict.equal left right = true) (htext : path.read left = .str text) :
    path.read right = .str text := by
  cases path with
  | top key => exact equal_get_str hequal htext
  | refresh key =>
      obtain ⟨fields, hfields, htext⟩ := get_eq_str htext
      obtain ⟨others, hothers, hinner⟩ := equal_get_dict hequal hfields
      simp only [AuthPath.read]
      rw [hothers]
      exact equal_get_str hinner htext
  | endpointAuth key =>
      obtain ⟨inner, hinner, htext⟩ := get_eq_str htext
      obtain ⟨fields, hfields, hinner⟩ := get_eq_dict hinner
      obtain ⟨others, hothers, hsame⟩ := equal_get_dict hequal hfields
      obtain ⟨last, hlast, hsame⟩ := equal_get_dict hsame hinner
      simp only [AuthPath.read]
      rw [hothers, Json.get_dict, hlast]
      exact equal_get_str hsame htext

/-- If the new data are equal to the old ones, the row is not written, and the old ones are
what the patch asks for. -/
theorem Patched.of_equal
    {after : Dict} (hpatched : Patched codec auth patch after)
    (hsealed : ∀ path ∈ secretPaths, ∀ text, path.read patch = .str text →
      (path = .endpointAuth "client_secret" →
        AuthPath.read patch (.endpointAuth "type") ≠ .str "none") →
      ∃ stored, path.read after = .str stored)
    (hequal : Dict.equal after auth = true) : Patched codec auth patch auth where
  type := rfl
  secrets := fun _ _ _ => carried_refl _ _
  written := by
    intro path hpath text htext hunmarked hkept draw
    obtain ⟨stored, hstored⟩ := hsealed path hpath text htext hkept
    have hsame := equal_read_str hequal hstored
    have hwritten := hpatched.written path hpath text htext hunmarked hkept draw
    rw [hstored] at hwritten
    rw [hsame]
    exact hwritten
  others := fun _ _ _ => carried_refl _ _

/-- A secret of the patch is stored as a text. -/
theorem encrypted_of_text
    {py : Interpreter} (hpatch : Dict.Keyed patch) {normal encrypted : Dict} {next : ℕ}
    (hchecked : CheckedAuth py (patch.foldl mergeAuthField auth) normal)
    (hencrypted : encryptSecretValues codec.toSecretCipher normal 0 =
      .ok (encrypted, next)) {path : AuthPath} (hpath : path ∈ secretPaths)
        {text : String}
    (htext : path.read patch = .str text)
    (hkept : path = .endpointAuth "client_secret" →
      AuthPath.read patch (.endpointAuth "type") ≠ .str "none") :
    ∃ stored, path.read encrypted = .str stored := by
  obtain ⟨first, last, hwalked⟩ := walkFields_read hencrypted path
  rw [checked_of_text hpatch hchecked hpath htext hkept] at hwalked
  rcases walkField_eq_ok hwalked with ⟨-, stored, -, -, hstored, -⟩ | ⟨hnone, -⟩
  · exact ⟨stored, hstored⟩
  · rw [secretText_eq_some.mpr ⟨secretPaths_secret hpath, rfl⟩] at hnone
    cases hnone

/-- What an accepted update does to the row which it has read. -/
theorem patched_row
    {py : Interpreter} (hsound : codec.Sound) {held : Resource}
    (hheld : Dict.get held.data "auth" = .dict auth) (hsettled : SettledAuth auth)
    {body merged data : Dict} (hbody : Dict.Keyed body)
    (hpatch : Dict.get body "auth" = .dict patch)
    (hmerged : mergeCredentialUpdate held.data body = .ok merged)
    (hdata : normalizeCredentialData py codec.toSecretCipher merged = .ok data)
    {row : Resource} (hrow : row.data = data ∨
      Dict.equal data held.data = true ∧ row.data = held.data) :
    ∃ after, Dict.get row.data "auth" = .dict after ∧ Patched codec auth patch after := by
  have hkeyed := keyed_field hbody hpatch
  have hcontains := Dict.contains_of_get (by simp [hpatch] : Dict.get body "auth" ≠ .null)
  unfold mergeCredentialUpdate at hmerged
  rw [if_pos hcontains, hpatch] at hmerged
  simp only [bind_eq_ok, pure_eq_ok] at hmerged
  obtain ⟨rest, -, mergedAuth, hauth, rfl⟩ := hmerged
  rw [hheld] at hauth
  obtain ⟨-, rfl, htype⟩ := mergeCredentialAuth_eq_ok hkeyed hsettled hauth
  obtain ⟨given, normal, encrypted, next, hchecked, hencrypted, hstored, hgiven⟩ :=
    normalizeCredentialData_auth hdata
  obtain rfl := hgiven _ (Dict.get_set_same _ _ _)
  have hpatched := patched_of_merge hsound hkeyed hsettled htype hchecked hencrypted
  rcases hrow with hrow | ⟨hequal, hrow⟩
  · exact ⟨encrypted, by rw [hrow, hstored], hpatched⟩
  · obtain ⟨others, hothers, hsame⟩ := equal_get_dict hequal hstored
    rw [hheld, Json.dict.injEq] at hothers
    subst hothers
    refine ⟨auth, by rw [hrow, hheld], hpatched.of_equal ?_ hsame⟩
    intro path hpath text htext hkept
    exact encrypted_of_text hkeyed hchecked hencrypted hpath htext hkept

/-- A patch of another type is refused. -/
theorem mergeCredentialUpdate_other_type
    {data body : Dict} (hheld : Dict.get data "auth" = .dict auth)
    (hsettled : SettledAuth auth) (hbody : Dict.Keyed body)
    (hpatch : Dict.get body "auth" = .dict patch)
    (htype : Dict.get patch "type" ≠ Dict.get auth "type") :
    ∃ error, mergeCredentialUpdate data body = .error error := by
  cases hmerged : mergeCredentialUpdate data body with
  | error error => exact ⟨error, rfl⟩
  | ok merged =>
      exfalso
      have hcontains := Dict.contains_of_get
        (by simp [hpatch] : Dict.get body "auth" ≠ .null)
      unfold mergeCredentialUpdate at hmerged
      rw [if_pos hcontains, hpatch] at hmerged
      simp only [bind_eq_ok, pure_eq_ok] at hmerged
      obtain ⟨rest, -, mergedAuth, hauth, rfl⟩ := hmerged
      rw [hheld] at hauth
      exact htype (mergeCredentialAuth_eq_ok (keyed_field hbody hpatch) hsettled hauth).1

end

/-- In every run, whatever the configured key was at each call, a stored credential has
an auth object.  An accepted patch makes of it what it says, and a patch of another type
is refused and changes nothing. -/
theorem credential_patches
    {py : Interpreter} {start : List Resource}
    (hids : (start.map ManagedResource.id).Nodup)
    (hstart : ∀ row ∈ start, ¬IsCredential row) {last : CredentialWorld}
    {calls : List ((EncryptionSettings × CredentialCall) × List ℕ)}
    (hrun : run (rekeyedStep py) { current := start, past := [] } calls = some last)
    {settings : EncryptionSettings} {call : CredentialCall}
    {vaultId credentialId : String}
    {body : CredentialBody} {patch : Dict}
    (hrequest : call.request = .update vaultId credentialId body)
    (hbody : Dict.Keyed body.fields) (hpatch : Dict.get body.fields "auth" = .dict patch)
    {held : Resource}
    (hheld : mustExistCredential call.workspaceId vaultId credentialId
      (fun _ => last.current) = .ok held)
    {codec : SecretCodec} (hsound : codec.Sound)
    (hcipher : codec.toSecretCipher = call.cipher settings) :
    ∃ auth, Dict.get held.data "auth" = .dict auth ∧
      (∀ next, call.body py settings (fun _ => last.current) last.current = some next →
        ∀ row ∈ next, row.id = held.id →
          ∃ after, Dict.get row.data "auth" = .dict after ∧
            Patched codec auth patch after) ∧
      (Dict.get patch "type" ≠ Dict.get auth "type" →
        (∃ error, call.handle py settings (fun _ => last.current) = .error error) ∧
          call.body py settings (fun _ => last.current) last.current = none) := by
  have hrows := settledRows_of_run hids hstart hrun
  obtain ⟨hmem, hid, hcredential⟩ := mustExistCredential_eq_ok hheld
  obtain ⟨auth, hauth, hsettled⟩ := hrows.credentials held hmem hcredential
  refine ⟨auth, hauth, ?_, ?_⟩
  · intro next hnext row hrow hsame
    unfold CredentialCall.body CredentialCall.handle at hnext
    simp only [hrequest] at hnext
    cases houtcome : updateCredential py (call.cipher settings) call.workspaceId vaultId
        credentialId body.fields (fun _ => last.current) with
    | error error => simp [houtcome] at hnext
    | ok outcome =>
        simp only [houtcome, Except.map_ok] at hnext
        unfold updateCredential at houtcome
        simp only [bind_eq_ok, pure_eq_ok, hheld] at houtcome
        obtain ⟨found, hfound, merged, hmerged, data, hdata, name, -, rfl⟩ := houtcome
        obtain rfl := Except.ok.inj hfound
        simp only [updateResource, commit_update, commit_nil, Option.some.injEq] at hnext
        subst hnext
        rw [← hcipher] at hdata
        refine patched_row hsound hauth hsettled hbody hpatch hmerged hdata ?_
        rcases mem_updateRow.mp hrow with ⟨-, hother⟩ | ⟨old, hold, holdId, rfl⟩
        · exact absurd hsame hother
        · obtain rfl := List.inj_on_of_nodup_map hrows.ids hold hmem holdId
          exact written_data rfl
  · intro htype
    obtain ⟨error, herror⟩ :=
      mergeCredentialUpdate_other_type hauth hsettled hbody hpatch htype
    have hrefused : updateCredential py (call.cipher settings) call.workspaceId vaultId
        credentialId body.fields (fun _ => last.current) = .error error := by
      unfold updateCredential
      rw [hheld]
      change (mergeCredentialUpdate _ _ >>= _) = _
      rw [herror]
      rfl
    have hhandle : call.handle py settings (fun _ => last.current) = .error error := by
      unfold CredentialCall.handle
      simp only [hrequest, hrefused]
      rfl
    refine ⟨⟨error, hhandle⟩, ?_⟩
    unfold CredentialCall.body
    rw [hhandle, hrequest]

/-! ## A sample patch -/

def sampleKeyedSettings : EncryptionSettings where
  encryptionKey := sampleCodec.encryptionKey
  aesgcmEncrypt := sampleCodec.aesgcmEncrypt

/-- A token that was stored before there was a key. -/
def samplePlainCalls : List ((EncryptionSettings × CredentialCall) × List ℕ) :=
  [(({ sampleKeyedSettings with encryptionKey := .ok none },
     (sampleCredentialCall "c" (.create "vault_v0" sampleAuthBody)).1), [])]

def samplePlainWorld : CredentialWorld :=
  (run (rekeyedStep sampleInterpreter) sampleVaultWorld samplePlainCalls).get
    (by decide)

def samplePlainCredential : Resource :=
  (samplePlainWorld.current.find? fun row => row.resourceType = .credential).get
    (by decide)

def samplePatch : Dict :=
  [("type", .str "static_bearer"), ("mcp_server_url", .str "https://other.test")]

def samplePatchBody : CredentialBody where
  fields := [("auth", .dict samplePatch)]
  keyed := by decide

def samplePatchCall : CredentialCall :=
  (sampleCredentialCall "d" (.update "vault_v0" "cred_c0" samplePatchBody)).1

theorem sample_credential_patches :
    ∃ auth, Dict.get samplePlainCredential.data "auth" = .dict auth ∧
      (∀ next, samplePatchCall.body sampleInterpreter sampleKeyedSettings
          (fun _ => samplePlainWorld.current) samplePlainWorld.current = some next →
        ∀ row ∈ next, row.id = samplePlainCredential.id →
          ∃ after, Dict.get row.data "auth" = .dict after ∧
            Patched sampleCodec auth samplePatch after) ∧
      (Dict.get samplePatch "type" ≠ Dict.get auth "type" →
        (∃ error, samplePatchCall.handle sampleInterpreter sampleKeyedSettings
          (fun _ => samplePlainWorld.current) = .error error) ∧
          samplePatchCall.body sampleInterpreter sampleKeyedSettings
            (fun _ => samplePlainWorld.current) samplePlainWorld.current = none) :=
  @credential_patches sampleInterpreter [sampleVault] (by decide)
    sampleVault_not_credential samplePlainWorld samplePlainCalls (Option.some_get _).symm
    sampleKeyedSettings samplePatchCall "vault_v0" "cred_c0" samplePatchBody samplePatch rfl
    (by decide) rfl samplePlainCredential (by decide) sampleCodec
    sampleCodec_sound rfl

end ManagedAgents
