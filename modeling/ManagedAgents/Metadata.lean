import ManagedAgents.SessionState

/-!
# Metadata dictionaries

Validation and merging of user metadata.  The keys of a JSON object are
strings, so the key check is left with the empty and the long ones.
-/

namespace ManagedAgents

def MAX_METADATA_KEYS : ℕ := 16
def MAX_METADATA_KEY_CHARS : ℕ := 64
def MAX_METADATA_VALUE_CHARS : ℕ := 512

def metadataKey (value : String) : Except HTTPException String :=
  if value = "" then
    .error ⟨422, "metadata keys must not be empty"⟩
  else if value.length > MAX_METADATA_KEY_CHARS then
    .error ⟨422, "metadata keys must be at most 64 characters"⟩
  else .ok value

def metadataValue : Json → Except HTTPException String
  | .str value =>
      if value.length > MAX_METADATA_VALUE_CHARS then
        .error ⟨422, "metadata values must be at most 512 characters"⟩
      else .ok value
  | _ => .error ⟨422, "metadata values must be strings"⟩

def validateMetadataSize (value : Dict) : Except HTTPException Unit :=
  if value.length > MAX_METADATA_KEYS then
    .error ⟨422, "metadata supports at most 16 keys"⟩
  else .ok ()

def normalizeMetadataFields : Dict → Dict → Except HTTPException Dict
  | normalized, [] => .ok normalized
  | normalized, (rawKey, rawValue) :: rest => do
      let key ← metadataKey rawKey
      if rawValue = .null then
        throw ⟨422, "metadata values must be strings"⟩
      let value ← metadataValue rawValue
      normalizeMetadataFields (Dict.set normalized key (.str value)) rest

def normalizeMetadata : Json → Except HTTPException Dict
  | .null => .ok []
  | .dict fields => do
      let normalized ← normalizeMetadataFields [] fields
      validateMetadataSize normalized
      return normalized
  | _ => .error ⟨422, "metadata must be an object"⟩

def mergeMetadataFields : Dict → Dict → Except HTTPException Dict
  | merged, [] => .ok merged
  | merged, (rawKey, rawValue) :: rest => do
      let key ← metadataKey rawKey
      let next ←
        if rawValue = .null ∨ rawValue = .str "" then
          pure (Dict.pop merged key)
        else do
          let value ← metadataValue rawValue
          pure (Dict.set merged key (.str value))
      validateMetadataSize next
      mergeMetadataFields next rest

def mergeMetadata (current patch : Json) : Except HTTPException Dict := do
  let merged ← normalizeMetadata current
  match patch with
  | .null => return merged
  | .dict fields => mergeMetadataFields merged fields
  | _ => throw ⟨422, "metadata must be an object"⟩

end ManagedAgents
