import ManagedAgents.MemoryRequests

/-!
# The stored dictionaries of memories

Which keys the creation, an update and the deletion of a memory set, and which
an update carries over from the dictionary before.
-/

namespace ManagedAgents

open Fallible

@[simp] theorem toInt_int (py : Interpreter) (value : ℤ) :
    py.toInt (.int value) = .ok value := rfl

theorem memoryPathKey_eq_ok {data : Dict} {key : String} :
    memoryPathKey data = .ok key ↔ Dict.get data "path_key" = .str key := by
  unfold memoryPathKey
  split
  next found hfound => simp [hfound]
  next hother =>
    constructor
    · intro h
      cases h
    · intro h
      exact absurd h (hother key)

/-! ## Digests -/

/-- The digest and the size in the dictionary are those of its content. -/
structure DigestMatches (data : Dict) : Prop where
  content : ∃ content, Dict.get data "content" = .str content ∧
    (utf8 content).length ≤ MAX_MEMORY_CONTENT_BYTES ∧
    Dict.get data "content_sha256" = .str (Sha256.hexdigest (utf8 content)) ∧
    Dict.get data "content_size_bytes" = .int (utf8 content).length

theorem DigestMatches.of_get
    {data other : Dict} (hmatches : DigestMatches data)
    (hsame : ∀ key ∈ ["content", "content_sha256", "content_size_bytes"],
      Dict.get other key = Dict.get data key) : DigestMatches other := by
  obtain ⟨content, hcontent, hlimit, hsha, hsize⟩ := hmatches.content
  refine ⟨content, ?_, hlimit, ?_, ?_⟩
  · rw [hsame _ (by simp), hcontent]
  · rw [hsame _ (by simp), hsha]
  · rw [hsame _ (by simp), hsize]

theorem enforceMemoryContentLimit_eq_ok {content : String} {value : Unit} :
    enforceMemoryContentLimit content = .ok value ↔
      (utf8 content).length ≤ MAX_MEMORY_CONTENT_BYTES := by
  unfold enforceMemoryContentLimit
  split
  next hlong => exact iff_of_false (by simp) (Nat.not_le.mpr hlong)
  next hshort => exact iff_of_true rfl (Nat.not_lt.mp hshort)

/-! ## Creation -/

/-- The dictionary of a new memory. -/
structure CreatedData (py : Interpreter) (body data : Dict) : Prop where
  version : Dict.get data "version" = .int 1
  pathKey : ∃ key, Dict.get data "path_key" = .str key
  pointer : Dict.get data "memory_version_id" = Dict.get body "memory_version_id"
  digest : DigestMatches data

theorem memoryPayload_created
    {py : Interpreter} {now : Time} {body data : Dict}
    (hdata : memoryPayload py now body = .ok data) : CreatedData py body data := by
  unfold memoryPayload at hdata
  simp only [bind_eq_ok, pure_eq_ok, enforceMemoryContentLimit_eq_ok] at hdata
  obtain ⟨path, -, -, hlimit, rfl⟩ := hdata
  refine ⟨?_, ⟨pathKey path, ?_⟩, ?_, ⟨_, ?_, hlimit, ?_, ?_⟩⟩ <;>
    simp [Dict.update, contentMetadata, Dict.get_setdefault_other]

theorem memoryPayload_path
    {py : Interpreter} {now : Time} {body data : Dict}
    (hdata : memoryPayload py now body = .ok data) :
    ∃ path, normalizeMemoryPath py (Dict.get body "path") = .ok path ∧
      Dict.get data "path_key" = .str (pathKey path) := by
  unfold memoryPayload at hdata
  simp only [bind_eq_ok, pure_eq_ok] at hdata
  obtain ⟨path, hpath, -, -, rfl⟩ := hdata
  exact ⟨path, hpath, by simp [Dict.update, contentMetadata, Dict.get_setdefault_other]⟩

/-! ## Updates -/

theorem get_mergeMemoryField_kept
    {merged : Dict} {field : String × Json} {key : String}
    (hkey : key ∈ KEPT_MEMORY_KEYS) :
    Dict.get (mergeMemoryField merged field) key = Dict.get merged key := by
  unfold mergeMemoryField
  split
  · rfl
  next hfield =>
    have hne : field.1 ≠ key := fun h => hfield (h ▸ hkey)
    split
    · exact Dict.get_pop_other hne
    · exact Dict.get_set_other _ hne

theorem get_foldl_mergeMemoryField_kept
    {merged : Dict} {key : String} (hkey : key ∈ KEPT_MEMORY_KEYS) (update : Dict) :
    Dict.get (update.foldl mergeMemoryField merged) key = Dict.get merged key := by
  induction update generalizing merged with
  | nil => rfl
  | cons field rest ih => rw [List.foldl_cons, ih, get_mergeMemoryField_kept hkey]

theorem get_foldl_mergeMemoryField_absent
    {merged : Dict} {key : String} {update : Dict}
    (hkey : Dict.contains update key = false) :
    Dict.get (update.foldl mergeMemoryField merged) key = Dict.get merged key := by
  induction update generalizing merged with
  | nil => rfl
  | cons field rest ih =>
      simp only [Dict.contains, List.any_cons, Bool.or_eq_false_iff,
        decide_eq_false_iff_not] at hkey
      rw [List.foldl_cons, ih (by simpa [Dict.contains] using hkey.2)]
      unfold mergeMemoryField
      split
      · rfl
      · split
        · exact Dict.get_pop_other hkey.1
        · exact Dict.get_set_other _ hkey.1

/-- A key that occurs once in the update is set, or removed when it is empty. -/
theorem get_foldl_mergeMemoryField_of_contains
    {merged : Dict} {key : String} {update : Dict} (hkey : key ∉ KEPT_MEMORY_KEYS)
    (hdistinct : (update.map Prod.fst).Nodup)
    (hcontains : Dict.contains update key = true) :
    Dict.get (update.foldl mergeMemoryField merged) key =
      if Dict.get update key = .str "" then .null else Dict.get update key := by
  induction update generalizing merged with
  | nil => cases hcontains
  | cons field rest ih =>
      rw [List.map_cons, List.nodup_cons] at hdistinct
      by_cases hfield : field.1 = key
      · subst hfield
        have habsent : Dict.contains rest field.1 = false := by
          rw [← Bool.not_eq_true]
          intro hrest
          obtain ⟨other, hother, hsame⟩ := List.any_eq_true.mp hrest
          exact hdistinct.1 (List.mem_map.mpr ⟨other, hother, by simpa using hsame⟩)
        rw [List.foldl_cons, get_foldl_mergeMemoryField_absent habsent]
        simp only [mergeMemoryField, hkey, if_false, Dict.get, if_true]
        split <;> simp
      · have hrest : Dict.contains rest key = true := by
          simpa [Dict.contains, hfield] using hcontains
        rw [List.foldl_cons, ih hdistinct.2 hrest]
        simp [Dict.get, hfield]

theorem get_mergeMemoryPath
    {py : Interpreter} {existing update merged : Dict} {key : String}
    (hmerged : mergeMemoryPath py existing update = .ok merged)
    (hkey : key ≠ "path" ∧ key ≠ "path_key") :
    Dict.get merged key = Dict.get existing key := by
  unfold mergeMemoryPath at hmerged
  split at hmerged
  · simp only [bind_eq_ok, pure_eq_ok] at hmerged
    obtain ⟨path, -, rfl⟩ := hmerged
    rw [Dict.get_set_other _ hkey.2.symm, Dict.get_set_other _ hkey.1.symm]
  · rw [pure_eq_ok] at hmerged
    rw [hmerged]

theorem get_mergeMemoryContent
    {py : Interpreter} {merged update next : Dict} {key : String}
    (hnext : mergeMemoryContent py merged update = .ok next)
    (hkey : key ∉ ["content", "content_sha256", "content_size_bytes"]) :
    Dict.get next key = Dict.get merged key := by
  simp only [List.mem_cons, List.not_mem_nil, or_false, not_or] at hkey
  obtain ⟨hcontent, hsha, hsize⟩ := hkey
  unfold mergeMemoryContent at hnext
  split at hnext
  · simp only [bind_eq_ok, pure_eq_ok] at hnext
    obtain ⟨-, -, rfl⟩ := hnext
    simp only [Dict.update, contentMetadata, List.foldl_cons, List.foldl_nil]
    rw [Dict.get_set_other _ (Ne.symm hsize), Dict.get_set_other _ (Ne.symm hsha),
      Dict.get_set_other _ (Ne.symm hcontent)]
  · rw [pure_eq_ok] at hnext
    rw [hnext]

/-- What an update leaves of the dictionary before and what it sets. -/
structure MergedData (py : Interpreter) (existing update data : Dict) : Prop where
  version : ∃ number, storedMemoryVersion py existing = .ok number ∧
    Dict.get data "version" = .int (number + 1)
  pointer : Dict.get data "memory_version_id" = Dict.get existing "memory_version_id"
  samePath : Dict.contains update "path" = false →
    Dict.get data "path_key" = Dict.get existing "path_key"
  newPath : Dict.contains update "path" = true →
    ∃ path, normalizeMemoryPath py (Dict.get update "path") = .ok path ∧
      Dict.get data "path_key" = .str (pathKey path)
  newContent : Dict.contains update "content" = true → DigestMatches data
  sameContent : Dict.contains update "content" = false →
    Dict.get data "content" = Dict.get existing "content"
  kept : ∀ key ∈ ["content_sha256", "content_size_bytes"],
    Dict.contains update "content" = false → Dict.contains update key = false →
      Dict.get data key = Dict.get existing key
  given : ∀ key ∈ ["content_sha256", "content_size_bytes"],
    Dict.contains update "content" = false → (update.map Prod.fst).Nodup →
      Dict.contains update key = true →
        Dict.get data key =
          if Dict.get update key = .str "" then .null else Dict.get update key

/-- The merge takes the actor out of the update. -/
def withoutActor (update : Dict) : Dict :=
  Dict.pop (Dict.pop update "updated_by") "actor"

theorem withoutActor_get
    {update : Dict} {key : String} (hkey : key ∉ ["updated_by", "actor"]) :
    Dict.get (withoutActor update) key = Dict.get update key ∧
      Dict.contains (withoutActor update) key = Dict.contains update key := by
  simp only [List.mem_cons, List.not_mem_nil, or_false, not_or] at hkey
  unfold withoutActor
  rw [Dict.get_pop_other (Ne.symm hkey.2), Dict.get_pop_other (Ne.symm hkey.1),
    Dict.contains_pop_other (Ne.symm hkey.2), Dict.contains_pop_other (Ne.symm hkey.1)]
  exact ⟨rfl, rfl⟩

theorem withoutActor_distinct
    {update : Dict} (hdistinct : (update.map Prod.fst).Nodup) :
    ((withoutActor update).map Prod.fst).Nodup :=
  hdistinct.sublist ((List.filter_sublist.trans List.filter_sublist).map _)

theorem mergeMemoryData_merged
    {py : Interpreter} {now : Time} {existing update data : Dict}
    (hdata : mergeMemoryData py now existing update = .ok data) :
    MergedData py existing update data := by
  unfold mergeMemoryData at hdata
  simp only [bind_eq_ok, pure_eq_ok] at hdata
  obtain ⟨pathed, hpathed, merged, hmerged, number, hnumber, rfl⟩ := hdata
  change mergeMemoryPath py existing (withoutActor update) = .ok pathed at hpathed
  change mergeMemoryContent py ((withoutActor update).foldl mergeMemoryField pathed)
    (withoutActor update) = .ok merged at hmerged
  have hpath := @withoutActor_get update "path" (by decide)
  have hcontent := @withoutActor_get update "content" (by decide)
  -- keys which the loop passes over and which are no part of the content
  have hkept : ∀ key ∈ KEPT_MEMORY_KEYS, Dict.get merged key = Dict.get pathed key := by
    intro key hkey
    rw [get_mergeMemoryContent hmerged (by revert key; decide),
      get_foldl_mergeMemoryField_kept hkey]
  have hold : ∀ key ∈ ["version", "memory_version_id"],
      Dict.get merged key = Dict.get existing key := by
    intro key hkey
    rw [hkept key (by revert key; decide),
      get_mergeMemoryPath hpathed (by revert key; decide)]
  have hsame : Dict.contains update "content" = false →
      merged = (withoutActor update).foldl mergeMemoryField pathed := by
    intro habsent
    rw [← hcontent.2] at habsent
    simp only [mergeMemoryContent, habsent, Bool.false_eq_true, if_false,
      pure_eq_ok] at hmerged
    exact hmerged.symm
  have hdata : ∀ key ∉ ["version", "updated_by", "updated_at", "metadata"],
      ∀ (number : ℤ) (actor updatedAt : String),
      Dict.get (Dict.setdefault (Dict.set (Dict.set (Dict.set merged "version"
        (.int number)) "updated_by" (.str actor)) "updated_at" (.str updatedAt))
        "metadata" (.dict [])) key = Dict.get merged key := by
    intro key hkey number actor updatedAt
    simp only [List.mem_cons, List.not_mem_nil, or_false, not_or] at hkey
    obtain ⟨hversion, hactor, hupdated, hmetadata⟩ := hkey
    rw [Dict.get_setdefault_other _ (Ne.symm hmetadata),
      Dict.get_set_other _ (Ne.symm hupdated), Dict.get_set_other _ (Ne.symm hactor),
      Dict.get_set_other _ (Ne.symm hversion)]
  have hapart : ∀ key ∈ ["content_sha256", "content_size_bytes"],
      key ∉ ["updated_by", "actor"] ∧
        key ∉ ["version", "updated_by", "updated_at", "metadata"] ∧
          (key ≠ "path" ∧ key ≠ "path_key") ∧ key ∉ KEPT_MEMORY_KEYS := by decide
  constructor
  · refine ⟨number, ?_, ?_⟩
    · unfold storedMemoryVersion
      rw [← hold "version" (by decide)]
      exact hnumber
    · rw [Dict.get_setdefault_other _ (by decide), Dict.get_set_other _ (by decide),
        Dict.get_set_other _ (by decide), Dict.get_set_same]
  · rw [hdata _ (by decide), hold _ (by decide)]
  · intro habsent
    rw [hdata _ (by decide), hkept _ (by decide)]
    rw [← hpath.2] at habsent
    simp only [mergeMemoryPath, habsent, Bool.false_eq_true, if_false,
      pure_eq_ok] at hpathed
    rw [hpathed]
  · intro hpresent
    rw [hdata _ (by decide), hkept _ (by decide)]
    rw [← hpath.2] at hpresent
    simp only [mergeMemoryPath, hpresent, if_true, bind_eq_ok, pure_eq_ok, hpath.1]
      at hpathed
    obtain ⟨path, hnormalized, rfl⟩ := hpathed
    exact ⟨path, hnormalized, Dict.get_set_same _ _ _⟩
  · intro hpresent
    rw [← hcontent.2] at hpresent
    simp only [mergeMemoryContent, hpresent, if_true, bind_eq_ok, pure_eq_ok,
      enforceMemoryContentLimit_eq_ok] at hmerged
    obtain ⟨-, hlimit, rfl⟩ := hmerged
    refine ⟨_, ?_, hlimit, ?_, ?_⟩ <;> rw [hdata _ (by decide)] <;>
      simp [Dict.update, contentMetadata]
  · intro habsent
    rw [hdata _ (by decide), hsame habsent,
      get_foldl_mergeMemoryField_absent (hcontent.2.trans habsent),
      get_mergeMemoryPath hpathed (by decide)]
  · intro key hkey habsent hmissing
    obtain ⟨hactor, hset, hpathKeys, -⟩ := hapart key hkey
    rw [← (withoutActor_get hactor).2] at hmissing
    rw [hdata _ hset, hsame habsent, get_foldl_mergeMemoryField_absent hmissing,
      get_mergeMemoryPath hpathed hpathKeys]
  · intro key hkey habsent hdistinct hgiven
    obtain ⟨hactor, hset, -, hpassed⟩ := hapart key hkey
    obtain ⟨hget, hcontains⟩ := @withoutActor_get update key hactor
    rw [← hcontains] at hgiven
    rw [hdata _ hset, hsame habsent,
      get_foldl_mergeMemoryField_of_contains hpassed (withoutActor_distinct hdistinct)
        hgiven, hget]

/-! ## Deletion, versions and redaction -/

theorem deletedMemoryData_version
    {py : Interpreter} {now : Time} {existing data : Dict}
    (hdata : deletedMemoryData py now existing = .ok data) :
    ∃ number, storedMemoryVersion py existing = .ok number ∧
      Dict.get data "version" = .int (number + 1) := by
  unfold deletedMemoryData at hdata
  simp only [bind_eq_ok, pure_eq_ok] at hdata
  obtain ⟨number, hnumber, rfl⟩ := hdata
  exact ⟨number, hnumber, by simp⟩

/-- A deletion changes the version and the marks of the last change alone. -/
theorem deletedMemoryData_get
    {py : Interpreter} {now : Time} {existing data : Dict} {key : String}
    (hdata : deletedMemoryData py now existing = .ok data)
    (hkey : key ∉ ["version", "updated_by", "updated_at"]) :
    Dict.get data key = Dict.get existing key := by
  simp only [List.mem_cons, List.not_mem_nil, or_false, not_or] at hkey
  obtain ⟨hversion, hactor, hupdated⟩ := hkey
  unfold deletedMemoryData at hdata
  simp only [bind_eq_ok, pure_eq_ok] at hdata
  obtain ⟨number, -, rfl⟩ := hdata
  rw [Dict.get_set_other _ (Ne.symm hupdated), Dict.get_set_other _ (Ne.symm hactor),
    Dict.get_set_other _ (Ne.symm hversion)]

theorem memoryVersionData_get (memory : Resource) (version : ℤ) (actor operation : String)
    (data : Dict) :
    Dict.get (memoryVersionData memory version actor operation data) "memory_version" =
        .int version ∧
      Dict.get (memoryVersionData memory version actor operation data) "operation" =
        .str operation ∧
      Dict.get (memoryVersionData memory version actor operation data) "snapshot" =
        .dict (memorySnapshot data) ∧
      Dict.get (memoryVersionData memory version actor operation data) "redacted" =
        .bool false := by
  simp [memoryVersionData, Dict.get]

theorem memorySnapshot_get
    {data : Dict} {key : String} (hkey : key ≠ "path_key") :
    Dict.get (memorySnapshot data) key = Dict.get data key :=
  @Dict.get_filter data key (fun field => decide (field ∉ ["path_key"])) (by simp [hkey])

/-- A version records the digest and the content of the memory. -/
theorem memoryVersionData_content
    (memory : Resource) (version : ℤ) (actor operation : String) (data : Dict)
    {key : String} (hkey : key ∈ ["content", "content_sha256", "content_size_bytes"]) :
    Dict.get (memoryVersionData memory version actor operation data) key =
      Dict.get data key := by
  simp only [List.mem_cons, List.not_mem_nil, or_false] at hkey
  rcases hkey with rfl | rfl | rfl <;>
    simp [memoryVersionData, Dict.get, memorySnapshot_get]

theorem redactedVersionData_get
    {py : Interpreter} {now : Time} {existing data : Dict} {key : String}
    (hdata : redactedVersionData py now existing = .ok data)
    (hkey : key ∉ ["snapshot", "redacted", "redacted_at"]) :
    Dict.get data key = Dict.get existing key := by
  simp only [List.mem_cons, List.not_mem_nil, or_false, not_or] at hkey
  obtain ⟨hsnapshot, hredacted, hredactedAt⟩ := hkey
  unfold redactedVersionData at hdata
  simp only [bind_eq_ok, pure_eq_ok] at hdata
  obtain ⟨snapshot, -, rfl⟩ := hdata
  rw [Dict.get_set_other _ (Ne.symm hredactedAt),
    Dict.get_set_other _ (Ne.symm hredacted), Dict.get_set_other _ (Ne.symm hsnapshot)]

theorem redactedVersionData_redacted
    {py : Interpreter} {now : Time} {existing data : Dict}
    (hdata : redactedVersionData py now existing = .ok data) :
    Dict.get data "redacted" = .bool true := by
  unfold redactedVersionData at hdata
  simp only [bind_eq_ok, pure_eq_ok] at hdata
  obtain ⟨snapshot, -, rfl⟩ := hdata
  simp

end ManagedAgents
