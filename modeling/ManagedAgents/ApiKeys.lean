import ManagedAgents.MemoryPaths
import ManagedAgents.ResourceWrites
import ManagedAgents.Library.ReadCommitted
import ManagedAgents.Library.Sha256

/-!
# API keys

The table of `db/queries/api_keys.py`: a key is created, found by the hash of its
token, touched and archived.  A hash belongs to one key for ever, and an archived key
stays archived.
-/

namespace ManagedAgents

open Fallible

structure ApiKey where
  id : String
  workspaceId : String
  name : String
  keyHash : String
  tokenStart : String
  metadata : Dict
  lastUsedAt : Option Time
  archivedAt : Option Time
deriving DecidableEq

def hashApiKey (token : String) : String := Sha256.hexdigest (utf8 token)

/-! ## Statements -/

/-- The columns which an `UPDATE` of a key sets. -/
structure KeyColumns where
  lastUsedAt : Option Time := none
  archivedAt : Option Time := none
deriving DecidableEq

def KeyColumns.write (columns : KeyColumns) (key : ApiKey) : ApiKey :=
  { key with
    lastUsedAt := columns.lastUsedAt.or key.lastUsedAt
    archivedAt := columns.archivedAt.or key.archivedAt }

inductive KeyStatement
  | insert (key : ApiKey)
  | update (keyId : String) (columns : KeyColumns)
deriving DecidableEq

/-- The primary key and `unique=True` of `key_hash`. -/
def keyConflicts (key other : ApiKey) : Bool :=
  key.id = other.id ∨ key.keyHash = other.keyHash

def KeyStatement.execute (keys : List ApiKey) : KeyStatement → Option (List ApiKey)
  | .insert key => if keys.any (keyConflicts key) then none else some (keys ++ [key])
  | .update keyId columns =>
      some (keys.map fun key => if key.id = keyId then columns.write key else key)

/-! ## Queries -/

/-- What `create_api_key` draws: the identifier and `token_urlsafe(32)`. -/
structure KeyDraws where
  uuidHex : String
  tokenUrlsafe : String

def KeyDraws.generateApiKey (draws : KeyDraws) : String := "oma_" ++ draws.tokenUrlsafe

/-- The row of `create_api_key`, whose workspace is already the one that
`workspace_id_or_default` gives, and the token. -/
def createApiKey (draws : KeyDraws) (workspaceId name : String) (token : Option String)
    (metadata : Option Dict) : ApiKey × String :=
  let plaintext := match token with
    | some token => if token = "" then draws.generateApiKey else token
    | none => draws.generateApiKey
  ({ id := "key_" ++ draws.uuidHex
     workspaceId := workspaceId
     name := name
     keyHash := hashApiKey plaintext
     tokenStart := String.ofList (plaintext.toList.take 12)
     metadata := metadata.getD []
     lastUsedAt := none
     archivedAt := none }, plaintext)

/-- The keys which the query of `get_api_key_by_token` selects. -/
def keySelected (token : String) (includeArchived : Bool) (key : ApiKey) : Bool :=
  key.keyHash = hashApiKey token ∧ (includeArchived = true ∨ key.archivedAt = none)

/-- `scalar_one_or_none` raises `MultipleResultsFound` at a second row. -/
def getApiKeyByToken (keys : List ApiKey) (token : String) (includeArchived : Bool) :
    Except HTTPException (Option ApiKey) :=
  match keys.filter (keySelected token includeArchived) with
  | [] => .ok none
  | [key] => .ok (some key)
  | _ => .error internalServerError

/-- An attribute which is set to its value is not written. -/
def touchApiKey (held : ApiKey) (now : Time) : KeyStatement :=
  .update held.id { lastUsedAt := if held.lastUsedAt = some now then none else some now }

def archiveApiKey (held : ApiKey) (now : Time) : KeyStatement :=
  .update held.id { archivedAt := if held.archivedAt = some now then none else some now }

/-! ## The table -/

/-- Identifiers and hashes are unique. -/
structure KeyTable (keys : List ApiKey) : Prop where
  ids : (keys.map ApiKey.id).Nodup
  hashes : (keys.map ApiKey.keyHash).Nodup

theorem KeyTable.nil : KeyTable [] where
  ids := List.nodup_nil
  hashes := List.nodup_nil

/-- The newer row of the key: only its use and its archiving are news. -/
structure ApiKey.Continues (key newer : ApiKey) : Prop where
  id : newer.id = key.id
  workspace : newer.workspaceId = key.workspaceId
  hash : newer.keyHash = key.keyHash
  archived : key.archivedAt.isSome → newer.archivedAt.isSome

theorem ApiKey.Continues.refl (key : ApiKey) : key.Continues key where
  id := rfl
  workspace := rfl
  hash := rfl
  archived := fun harchived => harchived

/-- Every key is still there. -/
def KeysKept (older newer : List ApiKey) : Prop :=
  ∀ key ∈ older, ∃ other ∈ newer, key.Continues other

theorem KeysKept.refl (keys : List ApiKey) : KeysKept keys keys :=
  fun key hkey => ⟨key, hkey, .refl key⟩

theorem KeysKept.trans
    {first second third : List ApiKey} (hfirst : KeysKept first second)
    (hsecond : KeysKept second third) : KeysKept first third := by
  intro key hkey
  obtain ⟨middle, hmiddle, hcontinues⟩ := hfirst key hkey
  obtain ⟨last, hlast, hlater⟩ := hsecond middle hmiddle
  exact ⟨last, hlast, hlater.id.trans hcontinues.id,
    hlater.workspace.trans hcontinues.workspace, hlater.hash.trans hcontinues.hash,
    fun harchived => hlater.archived (hcontinues.archived harchived)⟩

theorem KeyColumns.write_continues (columns : KeyColumns) (key : ApiKey) :
    key.Continues (columns.write key) where
  id := rfl
  workspace := rfl
  hash := rfl
  archived := by
    intro harchived
    unfold KeyColumns.write
    cases columns.archivedAt with
    | none => exact harchived
    | some now => rfl

section

variable {keys next : List ApiKey}

theorem KeyTable.insert
    (hkeys : KeyTable keys) {key : ApiKey} (hfree : keys.any (keyConflicts key) = false) :
    KeyTable (keys ++ [key]) := by
  have hdiffers : ∀ other ∈ keys, key.id ≠ other.id ∧ key.keyHash ≠ other.keyHash := by
    intro other hother
    simpa [keyConflicts] using List.any_eq_false.mp hfree other hother
  constructor
  · rw [List.map_append, List.map_singleton, List.nodup_append]
    refine ⟨hkeys.ids, List.nodup_singleton _, ?_⟩
    simpa using fun other hother => (hdiffers other hother).1.symm
  · rw [List.map_append, List.map_singleton, List.nodup_append]
    refine ⟨hkeys.hashes, List.nodup_singleton _, ?_⟩
    simpa using fun other hother => (hdiffers other hother).2.symm

theorem KeyTable.map
    (hkeys : KeyTable keys) {write : ApiKey → ApiKey}
    (hwrite : ∀ key : ApiKey, key.Continues (write key)) : KeyTable (keys.map write) where
  ids := by
    have hids : ApiKey.id ∘ write = ApiKey.id := funext fun key => (hwrite key).id
    rw [List.map_map, hids]
    exact hkeys.ids
  hashes := by
    have hhashes : ApiKey.keyHash ∘ write = ApiKey.keyHash :=
      funext fun key => (hwrite key).hash
    rw [List.map_map, hhashes]
    exact hkeys.hashes

theorem KeyStatement.execute_kept
    {statement : KeyStatement} (hkeys : KeyTable keys)
    (hexecute : statement.execute keys = some next) :
    KeyTable next ∧ KeysKept keys next := by
  cases statement with
  | insert key =>
      simp only [KeyStatement.execute] at hexecute
      split at hexecute
      · cases hexecute
      next hfree =>
        cases hexecute
        refine ⟨hkeys.insert (Bool.not_eq_true _ ▸ hfree), ?_⟩
        exact fun other hother => ⟨other, List.mem_append_left _ hother, .refl other⟩
  | update keyId columns =>
      cases hexecute
      have hwrite : ∀ key : ApiKey,
          key.Continues (if key.id = keyId then columns.write key else key) := by
        intro key
        split
        · exact columns.write_continues key
        · exact .refl key
      exact ⟨hkeys.map hwrite, fun key hkey => ⟨_, List.mem_map_of_mem hkey, hwrite key⟩⟩

/-- The row of the hash is found if it is selected, and nothing else is. -/
theorem KeyTable.getApiKeyByToken_eq
    (hkeys : KeyTable keys) (token : String) (includeArchived : Bool) :
    getApiKeyByToken keys token includeArchived =
      .ok (keys.find? (keySelected token includeArchived)) := by
  unfold getApiKeyByToken
  rw [← List.head?_filter]
  rcases hselected : keys.filter (keySelected token includeArchived) with
    - | ⟨first, - | ⟨second, rest⟩⟩
  · rfl
  · rfl
  · -- two rows of one hash
    have hsub : (first :: second :: rest).Sublist keys :=
      hselected ▸ List.filter_sublist
    have hhash : ∀ key ∈ first :: second :: rest, key.keyHash = hashApiKey token := by
      intro key hkey
      rw [← hselected, List.mem_filter] at hkey
      exact (of_decide_eq_true hkey.2).1
    have hnodup := (hsub.map ApiKey.keyHash).nodup hkeys.hashes
    have hdiffers : first.keyHash ≠ second.keyHash := by
      simp only [List.map_cons, List.nodup_cons, List.mem_cons] at hnodup
      exact fun heq => hnodup.1 (.inl heq)
    exact absurd ((hhash first (by simp)).trans (hhash second (by simp)).symm) hdiffers

theorem KeyTable.find?_eq_some
    (hkeys : KeyTable keys) {token : String} {includeArchived : Bool} {key : ApiKey} :
    keys.find? (keySelected token includeArchived) = some key ↔
      key ∈ keys ∧ keySelected token includeArchived key = true := by
  constructor
  · intro hfound
    exact ⟨List.mem_of_find?_eq_some hfound, List.find?_some hfound⟩
  · rintro ⟨hkey, hselected⟩
    cases hfound : keys.find? (keySelected token includeArchived) with
    | none => exact absurd hselected (List.find?_eq_none.mp hfound key hkey)
    | some other =>
        have hother := List.find?_some hfound
        have hhash : other.keyHash = key.keyHash :=
          (of_decide_eq_true hother).1.trans (of_decide_eq_true hselected).1.symm
        rw [List.inj_on_of_nodup_map hkeys.hashes (List.mem_of_find?_eq_some hfound) hkey
          hhash]

end

end ManagedAgents
