import ManagedAgents.AuthFields
import ManagedAgents.CredentialResponses

/-!
# Purging and encrypting

Encrypting changes only texts under secret keys, and purging cuts off whatever stands
under one.  So a value and its encryption have the same purged value, in which all
positions outside of secret keys are as before and encrypting finds nothing to do.
-/

namespace ManagedAgents

/-! ## Positions -/

/-- A step into a value. -/
inductive JsonStep
  | key (name : String)
  | index (position : ℕ)

def JsonStep.IsPlain : JsonStep → Prop
  | .key name => isSecretKey name = false
  | .index _ => True

def Json.child : Json → JsonStep → Option Json
  | .dict fields, .key name => fields.lookup name
  | .list items, .index position => items[position]?
  | _, _ => none

def Json.valueAt (value : Json) : List JsonStep → Option Json
  | [] => some value
  | step :: rest => (value.child step).bind fun child => child.valueAt rest

/-- The same leaf, lists of the same length or dictionaries with the same keys. -/
inductive SameNode : Json → Json → Prop
  | leaf {value : Json} (hleaf : value.IsLeaf) : SameNode value value
  | list {first second : List Json} (hlength : first.length = second.length) :
      SameNode (.list first) (.list second)
  | dict {first second : Dict} (hkeys : first.map Prod.fst = second.map Prod.fst) :
      SameNode (.dict first) (.dict second)

theorem purgeSecretItems_eq_map (items : List Json) :
    purgeSecretItems items = items.map purgeSecretValues := by
  induction items with
  | nil => rfl
  | cons item rest ih => rw [purgeSecretItems, ih, List.map_cons]

theorem lookup_purgeSecretFields
    {name : String} (hname : isSecretKey name = false) (fields : Dict) :
    (purgeSecretFields fields).lookup name =
      (fields.lookup name).map purgeSecretValues := by
  induction fields with
  | nil => rfl
  | cons field rest ih =>
      obtain ⟨key, child⟩ := field
      rw [purgeSecretFields, List.lookup_cons, List.lookup_cons]
      split
      next hkey =>
        obtain rfl := eq_of_beq hkey
        simp [hname]
      next => exact ih

theorem child_purge
    {step : JsonStep} (hstep : step.IsPlain) (value : Json) :
    (purgeSecretValues value).child step = (value.child step).map purgeSecretValues := by
  cases value with
  | dict fields =>
      rw [purgeSecretValues]
      cases step with
      | key name => exact lookup_purgeSecretFields hstep fields
      | index position => rfl
  | list items =>
      rw [purgeSecretValues, purgeSecretItems_eq_map]
      cases step with
      | key name => rfl
      | index position => exact List.getElem?_map
  | null | bool | int | float | str =>
      cases step <;> simp [purgeSecretValues, Json.child]

/-- A position outside of secret keys has the purged value of what it had. -/
theorem valueAt_purge
    {path : List JsonStep} (hpath : ∀ step ∈ path, step.IsPlain) (value : Json) :
    (purgeSecretValues value).valueAt path =
      (value.valueAt path).map purgeSecretValues := by
  induction path generalizing value with
  | nil => rfl
  | cons step rest ih =>
      obtain ⟨hstep, hrest⟩ := List.forall_mem_cons.mp hpath
      rw [Json.valueAt, Json.valueAt, child_purge hstep]
      cases value.child step with
      | none => rfl
      | some child => exact ih hrest child

theorem sameNode_purge (value : Json) : SameNode value (purgeSecretValues value) := by
  cases value with
  | dict fields =>
      rw [purgeSecretValues]
      exact .dict (purgeSecretFields_keys fields).symm
  | list items =>
      rw [purgeSecretValues, purgeSecretItems_eq_map]
      exact .list (List.length_map _).symm
  | null | bool | int | float | str =>
      rw [purgeSecretValues]
      · exact .leaf trivial
      all_goals simp

theorem positions_purge
    {path : List JsonStep} (hpath : ∀ step ∈ path, step.IsPlain) (value : Json) :
    Option.Rel SameNode (value.valueAt path)
      ((purgeSecretValues value).valueAt path) := by
  rw [valueAt_purge hpath]
  cases value.valueAt path with
  | none => exact .none
  | some child => exact .some (sameNode_purge child)

/-! ## Purging again -/

mutual

/-- A value whose secret fields are empty already. -/
theorem purge_eq_self :
    ∀ value, Json.SecretsHold (· = .null) value → purgeSecretValues value = value
  | .dict fields, hvalue => by
      rw [purgeSecretValues, purgeFields_eq_self fields hvalue]
  | .list items, hvalue => by
      rw [purgeSecretValues, purgeItems_eq_self items hvalue]
  | .null, _ | .bool _, _ | .int _, _ | .float _, _ | .str _, _ => by
      rw [purgeSecretValues]
      all_goals simp

theorem purgeItems_eq_self :
    ∀ items, Json.ItemSecretsHold (· = .null) items → purgeSecretItems items = items
  | [], _ => rfl
  | item :: rest, hitems => by
      rw [purgeSecretItems, purge_eq_self item hitems.1, purgeItems_eq_self rest hitems.2]

theorem purgeFields_eq_self :
    ∀ fields, Json.FieldSecretsHold (· = .null) fields →
      purgeSecretFields fields = fields
  | [], _ => rfl
  | (key, child) :: rest, hfields => by
      rw [purgeSecretFields, purgeFields_eq_self rest hfields.2]
      split
      next hkey => rw [hfields.1.1 hkey]
      next => rw [purge_eq_self child hfields.1.2]

end

/-! ## When encrypting returns -/

section

variable {transform : String → Encrypting String} {Works : String → Prop}

theorem returns_bind_iff
    {Value Result : Type} {first : Encrypting Value} {second : Value → Encrypting Result}
    {After : Prop}
    (hsecond : ∀ value next, (∃ result, second value next = .ok result) ↔ After)
    (draw : ℕ) :
    (∃ result, (first >>= second) draw = .ok result) ↔
      (∃ result, first draw = .ok result) ∧ After := by
  simp only [encrypting_bind_eq_ok]
  constructor
  · rintro ⟨result, value, next, hfirst, hresult⟩
    exact ⟨⟨_, hfirst⟩, (hsecond value next).mp ⟨result, hresult⟩⟩
  · rintro ⟨⟨⟨value, next⟩, hfirst⟩, hafter⟩
    obtain ⟨result, hresult⟩ := (hsecond value next).mpr hafter
    exact ⟨result, value, next, hfirst, hresult⟩

theorem returns_pure {Value : Type} (value : Value) (draw : ℕ) :
    ∃ result, (pure value : Encrypting Value) draw = .ok result :=
  ⟨(value, draw), rfl⟩

/-- The transformation works on the value if it is a text. -/
def WorksOn (Works : String → Prop) (value : Json) : Prop :=
  ∀ text, value = .str text → Works text

theorem walkField_returns_iff
    (hworks : ∀ text draw, (∃ result, transform text draw = .ok result) ↔ Works text)
    {key : String} {child : Json} {draw : ℕ}
    (hchild : (∃ result, walk transform child draw = .ok result) ↔
      Json.SecretsHold (WorksOn Works) child) :
    (∃ result, walkField transform key child draw = .ok result) ↔
      FieldHolds (WorksOn Works) (key, child) := by
  unfold walkField FieldHolds
  cases htext : secretText key child with
  | some text =>
      obtain ⟨hkey, rfl⟩ := secretText_eq_some.mp htext
      simp only [encrypting_map_eq_ok, WorksOn, hkey, true_imp_iff, Json.str.injEq,
        forall_eq', Json.secretsHold_str, and_true, ← hworks text draw]
      constructor
      · rintro ⟨result, encrypted, hencrypted, -⟩
        exact ⟨_, hencrypted⟩
      · rintro ⟨⟨encrypted, next⟩, hencrypted⟩
        exact ⟨(.str encrypted, next), encrypted, hencrypted, rfl⟩
  | none =>
      rw [hchild, and_iff_right]
      rintro hkey text rfl
      rw [secretText_eq_some.mpr ⟨hkey, rfl⟩] at htext
      cases htext

mutual

/-- A walk returns exactly if it can transform every text under a secret key. -/
theorem walk_returns_iff
    (hworks : ∀ text draw, (∃ result, transform text draw = .ok result) ↔ Works text) :
    ∀ (value : Json) (draw : ℕ),
      (∃ result, walk transform value draw = .ok result) ↔
        Json.SecretsHold (WorksOn Works) value
  | .dict fields, draw => by
      rw [walk, returns_bind_iff fun _ _ => iff_true_intro (returns_pure _ _), and_true,
        walkFields_returns_iff hworks fields draw]
      rfl
  | .list items, draw => by
      rw [walk, returns_bind_iff fun _ _ => iff_true_intro (returns_pure _ _), and_true,
        walkItems_returns_iff hworks items draw]
      rfl
  | .null, draw => iff_of_true ⟨_, walk_leaf .null trivial draw⟩ trivial
  | .bool value, draw => iff_of_true ⟨_, walk_leaf (.bool value) trivial draw⟩ trivial
  | .int value, draw => iff_of_true ⟨_, walk_leaf (.int value) trivial draw⟩ trivial
  | .float value, draw => iff_of_true ⟨_, walk_leaf (.float value) trivial draw⟩ trivial
  | .str text, draw => iff_of_true ⟨_, walk_leaf (.str text) trivial draw⟩ trivial

theorem walkItems_returns_iff
    (hworks : ∀ text draw, (∃ result, transform text draw = .ok result) ↔ Works text) :
    ∀ (items : List Json) (draw : ℕ),
      (∃ result, walkItems transform items draw = .ok result) ↔
        Json.ItemSecretsHold (WorksOn Works) items
  | [], draw => iff_of_true (returns_pure _ draw) trivial
  | item :: rest, draw => by
      have hrest : ∀ (first : Json) (next : ℕ),
          (∃ result, (do return first :: (← walkItems transform rest)) next =
            .ok result) ↔
            Json.ItemSecretsHold (WorksOn Works) rest := by
        intro first next
        rw [returns_bind_iff fun _ _ => iff_true_intro (returns_pure _ _), and_true,
          walkItems_returns_iff hworks rest next]
      rw [walkItems, returns_bind_iff hrest, walk_returns_iff hworks item draw]
      rfl

theorem walkFields_returns_iff
    (hworks : ∀ text draw, (∃ result, transform text draw = .ok result) ↔ Works text) :
    ∀ (fields : List (String × Json)) (draw : ℕ),
      (∃ result, walkFields transform fields draw = .ok result) ↔
        Json.FieldSecretsHold (WorksOn Works) fields
  | [], draw => iff_of_true (returns_pure _ draw) trivial
  | (key, child) :: rest, draw => by
      have hrest : ∀ (first : Json) (next : ℕ),
          (∃ result, (do return (key, first) :: (← walkFields transform rest)) next =
            .ok result) ↔ Json.FieldSecretsHold (WorksOn Works) rest := by
        intro first next
        rw [returns_bind_iff fun _ _ => iff_true_intro (returns_pure _ _), and_true,
          walkFields_returns_iff hworks rest next]
      rw [walkFields_cons, returns_bind_iff hrest,
        walkField_returns_iff hworks (walk_returns_iff hworks child draw)]
      rfl

end

end

theorem encryptSecret_returns_iff
    (cipher : SecretCipher) (text : String) (draw : ℕ) :
    (∃ result, encryptSecret cipher text draw = .ok result) ↔
      ∃ key, cipher.encryptionKey = .ok key := by
  unfold encryptSecret
  cases cipher.encryptionKey with
  | error error => simp
  | ok key =>
      cases key with
      | none => simp
      | some key =>
          cases startswith text ENCRYPTED_PREFIX <;> simp

/-! ## Purging and encrypting -/

/-- Encrypting with the cipher, which returns if its key can be read or is not asked
for, and purging. -/
theorem purging_covers_encrypting (cipher : SecretCipher) (value : Json) (draw : ℕ) :
    ((∃ result, walk (encryptSecret cipher) value draw = .ok result) ↔
      Json.SecretsHold (WorksOn fun _ => ∃ key, cipher.encryptionKey = .ok key) value) ∧
    (∀ encrypted next, walk (encryptSecret cipher) value draw = .ok (encrypted, next) →
      purgeSecretValues encrypted = purgeSecretValues value) ∧
    Json.SecretsHold (· = .null) (purgeSecretValues value) ∧
    (∀ path : List JsonStep, (∀ step ∈ path, step.IsPlain) →
      Option.Rel SameNode (value.valueAt path)
        ((purgeSecretValues value).valueAt path)) ∧
    purgeSecretValues (purgeSecretValues value) = purgeSecretValues value ∧
    walk (encryptSecret cipher) (purgeSecretValues value) draw =
      .ok (purgeSecretValues value, draw) := by
  have hnulls := @purgeSecretValues_hold (· = .null) rfl value
  refine ⟨walk_returns_iff (encryptSecret_returns_iff cipher) value draw,
    fun encrypted next hencrypted => purge_walk value hencrypted, hnulls,
    fun path hpath => positions_purge hpath value, purge_eq_self _ hnulls, ?_⟩
  exact walk_eq_self (fun text hnull => by cases hnull) _ hnulls draw

def sampleZeroCipher : SecretCipher where
  encryptionKey := sampleSettings.encryptionKey
  nonce := fun _ => List.replicate 12 0
  aesgcmEncrypt := sampleSettings.aesgcmEncrypt

/-- A secret text below a plain key, and a secret list. -/
def sampleNested : Json :=
  .dict [("auth", .dict sampleAuth),
    ("allowed_hosts", .list [.dict [("api_key", .list [])]])]

theorem sample_purging_covers_encrypting :
    ∃ result, walk (encryptSecret sampleZeroCipher) sampleNested 0 = .ok result ∧
      purgeSecretValues result.1 = purgeSecretValues sampleNested := by
  have hcovers := purging_covers_encrypting sampleZeroCipher sampleNested 0
  obtain ⟨result, hresult⟩ := hcovers.1.mpr (by
    have hkey : ∃ key, sampleZeroCipher.encryptionKey = .ok key := ⟨_, rfl⟩
    simp [sampleNested, sampleAuth, Dict.SecretsHold, FieldHolds, WorksOn, hkey])
  exact ⟨result, hresult, hcovers.2.1 _ _ hresult⟩

example :
    purgeSecretValues sampleNested = .dict
      [("auth", .dict [("type", .str "static_bearer"),
        ("mcp_server_url", .str "https://mcp.test"), ("token", .null)]),
       ("allowed_hosts", .list [.dict [("api_key", .null)]])] := by
  simp [sampleNested, sampleAuth, purgeSecretValues, purgeSecretItems, purgeSecretFields,
    isSecretKey_plain, isSecretKey_secret]

end ManagedAgents
