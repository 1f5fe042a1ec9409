import ManagedAgents.DictEquality
import ManagedAgents.MemoryRecords
import ManagedAgents.NormalizedPaths

/-!
# What an update of a memory changes

The merged dictionary key by key, and when it counts as a change.  A stored path is a
value which some request has sent, and its key is that of the normalised path.
-/

namespace ManagedAgents

open Fallible LabelledRuns ReadCommitted

/-! ## The merged dictionary -/

/-- What the loop over an update leaves under a key. -/
def mergedField (held given : Option Json) : Option Json :=
  match given with
  | none => held
  | some value => if value = .str "" then none else some value

theorem find_mergeMemoryField
    (merged : Dict) (field : String × Json) (key : String) :
    Dict.find (mergeMemoryField merged field) key =
      if key ∈ KEPT_MEMORY_KEYS ∨ field.1 ≠ key then Dict.find merged key
      else mergedField (Dict.find merged key) (some field.2) := by
  unfold mergeMemoryField mergedField
  by_cases hsame : field.1 = key
  · subst hsame
    by_cases hkept : field.1 ∈ KEPT_MEMORY_KEYS
    · simp [hkept]
    · by_cases hempty : field.2 = .str "" <;> simp [hkept, hempty, Dict.find_pop]
  · simp only [ne_eq, hsame, not_false_eq_true, or_true, if_true]
    split
    · rfl
    · split
      · rw [Dict.find_pop, if_neg (Ne.symm hsame)]
      · exact Dict.find_set_other _ hsame

theorem find_foldl_mergeMemoryField
    {update : Dict} (hdistinct : (update.map Prod.fst).Nodup) (merged : Dict)
    (key : String) :
    Dict.find (update.foldl mergeMemoryField merged) key =
      if key ∈ KEPT_MEMORY_KEYS then Dict.find merged key
      else mergedField (Dict.find merged key) (Dict.find update key) := by
  induction update generalizing merged with
  | nil => simp [Dict.find, mergedField]
  | cons field rest ih =>
      rw [List.map_cons, List.nodup_cons] at hdistinct
      rw [List.foldl_cons, ih hdistinct.2, find_mergeMemoryField]
      by_cases hkept : key ∈ KEPT_MEMORY_KEYS
      · simp [hkept]
      by_cases hsame : field.1 = key
      · -- the key does not come again
        have habsent : Dict.find rest key = none := by
          rw [Dict.find_eq_none, ← Bool.not_eq_true, Dict.contains_iff, ← hsame]
          exact hdistinct.1
        simp [hkept, hsame, habsent, Dict.find, mergedField]
      · simp [hkept, hsame, Dict.find]

/-- The merged dictionary, except for the keys which do not count as a change. -/
structure MergedFields (py : Interpreter) (existing update data : Dict) : Prop where
  field : ∀ key ∉ IGNORED_MEMORY_KEYS ++ ["path_key", "content", "metadata"],
    Dict.find data key = mergedField (Dict.find existing key) (Dict.find update key)
  metadata : Dict.contains existing "metadata" = true →
    Dict.get update "metadata" ≠ .str "" →
    Dict.find data "metadata" =
      mergedField (Dict.find existing "metadata") (Dict.find update "metadata")
  content : Dict.find data "content" =
    if Dict.contains update "content" then
      some (.str (contentText py (Dict.get update "content")))
    else Dict.find existing "content"
  samePath : Dict.contains update "path" = false →
    Dict.find data "path_key" = Dict.find existing "path_key"
  newPath : Dict.contains update "path" = true →
    ∃ path, normalizeMemoryPath py (Dict.get update "path") = .ok path ∧
      Dict.find data "path_key" = some (.str (pathKey path))

theorem mergeMemoryPath_find
    {py : Interpreter} {existing update pathed : Dict}
    (hpathed : mergeMemoryPath py existing update = .ok pathed) {key : String}
    (hkey : key ≠ "path" ∧ key ≠ "path_key") :
    Dict.find pathed key = Dict.find existing key := by
  unfold mergeMemoryPath at hpathed
  split at hpathed
  · simp only [bind_eq_ok, pure_eq_ok] at hpathed
    obtain ⟨path, -, rfl⟩ := hpathed
    rw [Dict.find_set_other _ hkey.2.symm, Dict.find_set_other _ hkey.1.symm]
  · rw [pure_eq_ok] at hpathed
    rw [hpathed]

theorem mergeMemoryContent_find
    {py : Interpreter} {merged update next : Dict}
    (hnext : mergeMemoryContent py merged update = .ok next) {key : String}
    (hkey : key ∉ ["content", "content_sha256", "content_size_bytes"]) :
    Dict.find next key = Dict.find merged key := by
  simp only [List.mem_cons, List.not_mem_nil, or_false, not_or] at hkey
  obtain ⟨hcontent, hsha, hsize⟩ := hkey
  unfold mergeMemoryContent at hnext
  split at hnext
  · simp only [bind_eq_ok, pure_eq_ok] at hnext
    obtain ⟨-, -, rfl⟩ := hnext
    simp only [Dict.update, contentMetadata, List.foldl_cons, List.foldl_nil]
    rw [Dict.find_set_other _ (Ne.symm hsize), Dict.find_set_other _ (Ne.symm hsha),
      Dict.find_set_other _ (Ne.symm hcontent)]
  · rw [pure_eq_ok] at hnext
    rw [hnext]

/-- An empty content is no content. -/
theorem contentText_mergedField (py : Interpreter) (held given : Option Json)
    (hgiven : given.isSome = true) :
    contentText py ((mergedField held given).getD .null) =
      contentText py (given.getD .null) := by
  obtain ⟨value, rfl⟩ := Option.isSome_iff_exists.mp hgiven
  unfold mergedField
  by_cases hempty : value = .str ""
  · subst hempty
    simp [contentText, Python.str]
  · simp [hempty]

theorem mergeMemoryData_fields
    {py : Interpreter} {now : Time} {existing update data : Dict}
    (hdistinct : (update.map Prod.fst).Nodup)
    (hdata : mergeMemoryData py now existing update = .ok data) :
    MergedFields py existing (withoutActor update) data := by
  unfold mergeMemoryData at hdata
  simp only [bind_eq_ok, pure_eq_ok] at hdata
  obtain ⟨pathed, hpathed, merged, hmerged, number, -, rfl⟩ := hdata
  change mergeMemoryPath py existing (withoutActor update) = .ok pathed at hpathed
  change mergeMemoryContent py ((withoutActor update).foldl mergeMemoryField pathed)
    (withoutActor update) = .ok merged at hmerged
  generalize hsent : withoutActor update = sent at hpathed hmerged ⊢
  have hsentDistinct : (sent.map Prod.fst).Nodup :=
    hsent ▸ withoutActor_distinct hdistinct
  have hloop := find_foldl_mergeMemoryField hsentDistinct pathed
  have hlast : ∀ key ∉ ["version", "updated_by", "updated_at", "metadata"],
      ∀ actor updatedAt, Dict.find (Dict.setdefault (Dict.set (Dict.set (Dict.set merged
        "version" (.int (number + 1))) "updated_by" actor) "updated_at" updatedAt)
        "metadata" (.dict [])) key = Dict.find merged key := by
    intro key hkey actor updatedAt
    simp only [List.mem_cons, List.not_mem_nil, or_false, not_or] at hkey
    obtain ⟨hversion, hactor, hupdated, hmetadata⟩ := hkey
    rw [Dict.find_setdefault, if_neg hmetadata, Dict.find_set_other _ (Ne.symm hupdated),
      Dict.find_set_other _ (Ne.symm hactor), Dict.find_set_other _ (Ne.symm hversion)]
  have hheld : ∀ key ≠ "path_key",
      mergedField (Dict.find pathed key) (Dict.find sent key) =
        mergedField (Dict.find existing key) (Dict.find sent key) := by
    intro key hkey
    cases hgiven : Dict.find sent key with
    | some value => rfl
    | none =>
        by_cases hpath : key = "path"
        · subst hpath
          rw [mergeMemoryPath, Dict.find_eq_none.mp hgiven] at hpathed
          cases hpathed
          rfl
        · rw [mergeMemoryPath_find hpathed ⟨hpath, hkey⟩]
  have hkept : Dict.find merged "path_key" = Dict.find pathed "path_key" := by
    rw [mergeMemoryContent_find hmerged (by decide), hloop, if_pos (by decide)]
  constructor
  · intro key hkey
    simp only [List.mem_append, not_or] at hkey
    obtain ⟨hignored, hother⟩ := hkey
    simp only [IGNORED_MEMORY_KEYS, List.mem_cons, List.not_mem_nil, or_false,
      not_or] at hignored hother
    rw [hlast key (by simp; tauto), mergeMemoryContent_find hmerged (by simp; tauto),
      hloop, if_neg (by simp [KEPT_MEMORY_KEYS]; tauto), hheld key hother.1]
  · intro hcontains hnonempty
    have hmetadata : Dict.find merged "metadata" =
        mergedField (Dict.find existing "metadata") (Dict.find sent "metadata") := by
      rw [mergeMemoryContent_find hmerged (by decide), hloop, if_neg (by decide),
        hheld _ (by decide)]
    rw [Dict.find_setdefault, if_pos rfl, Dict.find_set_other _ (by decide),
      Dict.find_set_other _ (by decide), Dict.find_set_other _ (by decide), hmetadata]
    have hsome : (mergedField (Dict.find existing "metadata")
        (Dict.find sent "metadata")).isSome = true := by
      cases hgiven : Dict.find sent "metadata" with
      | none =>
          rw [mergedField, ← Dict.contains_eq_find]
          exact hcontains
      | some value =>
          rw [Dict.get_eq_find, hgiven] at hnonempty
          simp only [Option.getD_some] at hnonempty
          simp [mergedField, hnonempty]
    obtain ⟨value, hvalue⟩ := Option.isSome_iff_exists.mp hsome
    rw [hvalue]
    rfl
  · rw [hlast _ (by decide)]
    by_cases hgiven : Dict.contains sent "content" = true
    · simp only [mergeMemoryContent, hgiven, if_true, bind_eq_ok, pure_eq_ok] at hmerged ⊢
      obtain ⟨-, -, rfl⟩ := hmerged
      rw [Dict.contains_eq_find] at hgiven
      have htext := contentText_mergedField py (Dict.find pathed "content") _ hgiven
      simp only [Dict.update, contentMetadata, List.foldl_cons, List.foldl_nil]
      rw [Dict.find_set_other _ (by decide), Dict.find_set_other _ (by decide),
        Dict.find_set_same, Dict.get_eq_find, hloop, if_neg (by decide), htext,
        Dict.get_eq_find]
    · have hsame := hheld "content" (by decide)
      rw [Bool.not_eq_true] at hgiven
      rw [Dict.find_eq_none.mpr hgiven] at hsame
      simp only [mergeMemoryContent, hgiven, Bool.false_eq_true, if_false,
        pure_eq_ok] at hmerged ⊢
      rw [← hmerged, hloop, if_neg (by decide), Dict.find_eq_none.mpr hgiven]
      exact hsame
  · intro habsent
    rw [hlast _ (by decide), hkept]
    simp only [mergeMemoryPath, habsent, Bool.false_eq_true, if_false,
      pure_eq_ok] at hpathed
    rw [hpathed]
  · intro hgiven
    rw [hlast _ (by decide), hkept]
    simp only [mergeMemoryPath, hgiven, if_true, bind_eq_ok, pure_eq_ok] at hpathed
    obtain ⟨path, hnormalized, rfl⟩ := hpathed
    exact ⟨path, hnormalized, Dict.find_set_same _ _ _⟩

/-! ## Changes -/

theorem find_memoryMaterial (data : Dict) (key : String) :
    Dict.find (memoryMaterial data) key =
      if key ∈ IGNORED_MEMORY_KEYS then none else Dict.find data key := by
  have hfilter :=
    @Dict.find_filter data key fun field => decide (field ∉ IGNORED_MEMORY_KEYS)
  rw [memoryMaterial, hfilter]
  by_cases hkey : key ∈ IGNORED_MEMORY_KEYS <;> simp [hkey]

theorem memoryHasMaterialChange_eq_false
    {existing merged : Dict} (hexisting : Dict.Keyed existing)
    (hmerged : (merged.map Prod.fst).Nodup) :
    memoryHasMaterialChange existing merged = false ↔ ∀ key ∉ IGNORED_MEMORY_KEYS,
      sameValue (Dict.find existing key) (Dict.find merged key) = true := by
  have hmaterial : ((memoryMaterial merged).map Prod.fst).Nodup :=
    hmerged.sublist (List.filter_sublist.map _)
  have hkeyed : Dict.Keyed (memoryMaterial existing) := hexisting.filter _
  unfold memoryHasMaterialChange
  rw [Bool.not_eq_eq_eq_not, Bool.not_false, Dict.equal_iff hkeyed hmaterial]
  apply forall_congr'
  intro key
  rw [find_memoryMaterial, find_memoryMaterial]
  by_cases hkey : key ∈ IGNORED_MEMORY_KEYS <;> simp [hkey, sameValue]

/-- What every stored memory looks like. -/
structure StoredMemory (py : Interpreter) (data : Dict) : Prop where
  keyed : Dict.Keyed data
  path : ∃ (value : PathValue) (path : String),
    Dict.find data "path" = some value.toJson ∧
      normalizeMemoryPath py value.toJson = .ok path ∧
      Dict.find data "path_key" = some (.str (pathKey path))
  content : ∃ text, Dict.find data "content" = some (.str text)
  metadata : Dict.contains data "metadata" = true

theorem PathValue.equal_iff (first second : PathValue) :
    Json.equal first.toJson second.toJson = true ↔ first = second := by
  cases first with
  | text value => cases second <;> simp [PathValue.toJson, Json.equal, eq_comm]
  | segments values =>
      cases second with
      | text other => simp [PathValue.toJson, Json.equal]
      | segments others => 
          have hinjective : Function.Injective Json.str := fun _ _ => Json.str.inj
          simp only [PathValue.toJson, Json.equal, PathValue.segments.injEq]
          rw [Json.equalItems_texts, hinjective.list_map.eq_iff]
          exact eq_comm

/-- The keys of an update whose values are stored as they are sent. -/
def PlainlyMerged (key : String) : Prop :=
  key ∉ IGNORED_MEMORY_KEYS ++ ["path", "path_key", "content"]

instance (key : String) : Decidable (PlainlyMerged key) :=
  inferInstanceAs (Decidable (key ∉ _))

/-- What the update asks for under the other keys holds already. -/
def RestInEffect (existing sent : Dict) : Prop :=
  ∀ key value, PlainlyMerged key → Dict.find sent key = some value →
    sameValue (Dict.find existing key) (mergedField none (some value)) = true

/-- What an update sends as its path, content and metadata. -/
structure SentMemory (sent : Dict) : Prop where
  path : ∀ value, Dict.find sent "path" = some value →
    value = .null ∨ ∃ path : PathValue, value = path.toJson
  metadata : Dict.get sent "metadata" ≠ .str ""

theorem memory_unchanged_iff
    {py : Interpreter} {existing sent data : Dict} (hstored : StoredMemory py existing)
    (hsent : SentMemory sent) (hfields : MergedFields py existing sent data)
    (hdata : (data.map Prod.fst).Nodup) :
    memoryHasMaterialChange existing data = false ↔
      (∀ value, Dict.find sent "path" = some value →
        Dict.get existing "path" = value) ∧
      (Dict.contains sent "content" = true → Dict.get existing "content" =
        .str (contentText py (Dict.get sent "content"))) ∧
      RestInEffect existing sent := by
  rw [memoryHasMaterialChange_eq_false hstored.keyed hdata]
  obtain ⟨held, heldPath, hheld, hheldPath, hheldKey⟩ := hstored.path
  obtain ⟨text, htext⟩ := hstored.content
  have hrest : ∀ key, PlainlyMerged key → Dict.find data key =
      mergedField (Dict.find existing key) (Dict.find sent key) := by
    intro key hkey
    by_cases hmetadata : key = "metadata"
    · subst hmetadata
      exact hfields.metadata hstored.metadata hsent.metadata
    · apply hfields.field
      simp only [PlainlyMerged, List.mem_append, List.mem_cons, List.not_mem_nil,
        or_false, not_or] at hkey ⊢
      tauto
  have hpath := hfields.field "path" (by decide)
  have hnewPath : ∀ value, Dict.find sent "path" = some value →
      ∃ (given : PathValue) (path : String), value = given.toJson ∧
        normalizeMemoryPath py value = .ok path ∧
        Dict.find data "path" = some value ∧
        Dict.find data "path_key" = some (.str (pathKey path)) := by
    intro value hvalue
    have hgiven : Dict.contains sent "path" = true := by
      rw [Dict.contains_eq_find, hvalue]
      rfl
    obtain ⟨path, hnormalized, hkey⟩ := hfields.newPath hgiven
    rw [Dict.get_eq_find, hvalue, Option.getD_some] at hnormalized
    have hnonempty : value ≠ .str "" := by
      rintro rfl
      exact normalizeMemoryPath_empty hnormalized
    rw [hvalue, mergedField, if_neg hnonempty] at hpath
    rcases hsent.path value hvalue with rfl | ⟨given, hgivenValue⟩
    · exact absurd hnormalized normalizeMemoryPath_null
    · exact ⟨given, path, hgivenValue, hnormalized, hpath, hkey⟩
  constructor
  · intro hsame
    refine ⟨fun value hvalue => ?_, fun hgiven => ?_, fun key value hkey hvalue => ?_⟩
    · obtain ⟨given, path, rfl, -, hgivenPath, -⟩ := hnewPath value hvalue
      have hequal := hsame "path" (by decide)
      rw [hheld, hgivenPath, sameValue, PathValue.equal_iff] at hequal
      rw [Dict.get_eq_find, hheld, hequal]
      rfl
    · have hequal := hsame "content" (by decide)
      rw [htext, hfields.content, if_pos hgiven, sameValue, Json.equal,
        decide_eq_true_eq] at hequal
      rw [Dict.get_eq_find, htext, hequal]
      rfl
    · have hignored : key ∉ IGNORED_MEMORY_KEYS := fun hmem =>
        hkey (List.mem_append_left _ hmem)
      have hequal := hsame key hignored
      rwa [hrest key hkey, hvalue] at hequal
  · rintro ⟨hsamePath, hsameContent, hsameRest⟩ key hkey
    by_cases hplain : PlainlyMerged key
    · rw [hrest key hplain]
      cases hvalue : Dict.find sent key with
      | none => exact hstored.keyed.sameValue key
      | some value => exact hsameRest key value hplain hvalue
    · have hspecial : key = "path" ∨ key = "path_key" ∨ key = "content" := by
        simp only [PlainlyMerged, List.mem_append, hkey, false_or, not_not, List.mem_cons,
          List.not_mem_nil, or_false] at hplain
        exact hplain
      rcases hspecial with rfl | rfl | rfl
      · cases hvalue : Dict.find sent "path" with
        | none =>
            rw [hpath, hvalue]
            exact hstored.keyed.sameValue _
        | some value =>
            obtain ⟨given, path, rfl, -, hgivenPath, -⟩ := hnewPath value hvalue
            have hget := hsamePath _ hvalue
            rw [Dict.get_eq_find, hheld, Option.getD_some] at hget
            rw [hheld, hgivenPath, sameValue, hget]
            exact (PathValue.equal_iff _ _).mpr rfl
      · cases hvalue : Dict.find sent "path" with
        | none =>
            rw [hfields.samePath (Dict.find_eq_none.mp hvalue)]
            exact hstored.keyed.sameValue _
        | some value =>
            obtain ⟨given, path, rfl, hnormalized, -, hgivenKey⟩ := hnewPath value hvalue
            have hget := hsamePath _ hvalue
            rw [Dict.get_eq_find, hheld, Option.getD_some] at hget
            rw [hget, hnormalized, Except.ok.injEq] at hheldPath
            rw [hheldKey, hgivenKey, hheldPath]
            simp [sameValue, Json.equal]
      · by_cases hgiven : Dict.contains sent "content" = true
        · have hget := hsameContent hgiven
          rw [Dict.get_eq_find, htext, Option.getD_some] at hget
          rw [htext, hfields.content, if_pos hgiven, hget]
          simp [sameValue, Json.equal]
        · rw [hfields.content, if_neg hgiven]
          exact hstored.keyed.sameValue _

/-! ## Bodies -/

theorem find_modelDump_cons
    (name key : String) (value : Option Json) (declared : List (String × Option Json))
    (extra : Dict) :
    Dict.find (modelDump ((name, value) :: declared) extra) key =
      if name = key then value.or (Dict.find (modelDump declared extra) key)
      else Dict.find (modelDump declared extra) key := by
  cases value with
  | none => by_cases hname : name = key <;> simp [modelDump, hname]
  | some value => by_cases hname : name = key <;> simp [modelDump, Dict.find, hname]

theorem find_modelDump_nil (extra : Dict) (key : String) :
    Dict.find (modelDump [] extra) key = Dict.find extra key := rfl

theorem find_extra
    {extra : Dict} {declared : List String} {key : String}
    (hextra : ∀ field ∈ extra, field.1 ∉ declared) (hkey : key ∈ declared) :
    Dict.find extra key = none := by
  rw [Dict.find_eq_none, ← Bool.not_eq_true, Dict.contains_iff]
  intro hmem
  obtain ⟨field, hfield, rfl⟩ := List.mem_map.mp hmem
  exact hextra field hfield hkey

/-- The update without preconditions and actor. -/
def sentMemory (body : MemoryUpdateRequest) : Dict :=
  withoutActor (memoryUpdate body)

section

variable (body : MemoryUpdateRequest)

theorem find_sentMemory
    {key : String} (hkey : key ∉ ["updated_by", "actor", "expected_version",
      "if_version", "precondition"]) :
    Dict.find (sentMemory body) key = Dict.find body.modelDump key := by
  simp only [List.mem_cons, List.not_mem_nil, or_false, not_or] at hkey
  simp [sentMemory, withoutActor, memoryUpdate, Dict.find_pop, hkey]

theorem find_sentMemory_path :
    Dict.find (sentMemory body) "path" =
      body.path.map fun path => (path.map PathValue.toJson).getD .null := by
  rw [find_sentMemory _ (by decide)]
  simp [MemoryUpdateRequest.modelDump, find_modelDump_cons, find_modelDump_nil,
    find_extra body.undeclared]

theorem find_sentMemory_metadata :
    Dict.find (sentMemory body) "metadata" =
      body.metadata.map fun metadata => (metadata.map Json.dict).getD .null := by
  rw [find_sentMemory _ (by decide)]
  simp [MemoryUpdateRequest.modelDump, find_modelDump_cons, find_modelDump_nil,
    find_extra body.undeclared]

theorem sentMemory_sent : SentMemory (sentMemory body) where
  path := by
    intro value hvalue
    rw [find_sentMemory_path] at hvalue
    obtain ⟨path, -, rfl⟩ := Option.map_eq_some_iff.mp hvalue
    cases path with
    | none => exact Or.inl rfl
    | some path => exact Or.inr ⟨path, rfl⟩
  metadata := by
    rw [Dict.get_eq_find, find_sentMemory_metadata]
    cases body.metadata with
    | none => simp
    | some metadata => cases metadata <;> simp

end

/-! ## Stored memories -/

theorem keyed_foldl_mergeMemoryField
    {update merged : Dict} (hmerged : Dict.Keyed merged)
    (hupdate : ∀ field ∈ update, field.2.keyed = true) :
    Dict.Keyed (update.foldl mergeMemoryField merged) := by
  induction update generalizing merged with
  | nil => exact hmerged
  | cons field rest ih =>
      rw [List.forall_mem_cons] at hupdate
      refine ih ?_ hupdate.2
      unfold mergeMemoryField
      split
      · exact hmerged
      · split
        · exact hmerged.pop _
        · exact hmerged.set _ hupdate.1

theorem keyed_contentMetadata
    {fields : Dict} (hfields : Dict.Keyed fields) (content : String) :
    Dict.Keyed (Dict.update fields (contentMetadata content)) :=
  (hfields.set _ rfl).set _ rfl

theorem mergeMemoryData_keyed
    {py : Interpreter} {now : Time} {existing data : Dict} {update : Dict}
    (hexisting : Dict.Keyed existing) (hupdate : Dict.Keyed update)
    (hdata : mergeMemoryData py now existing update = .ok data) : Dict.Keyed data := by
  unfold mergeMemoryData at hdata
  simp only [bind_eq_ok, pure_eq_ok] at hdata
  obtain ⟨pathed, hpathed, merged, hmerged, number, -, rfl⟩ := hdata
  have hpath : Dict.Keyed pathed := by
    unfold mergeMemoryPath at hpathed
    split at hpathed
    · simp only [bind_eq_ok, pure_eq_ok] at hpathed
      obtain ⟨path, -, rfl⟩ := hpathed
      exact (hexisting.set _ rfl).set _ rfl
    · cases hpathed
      exact hexisting
  have hloop := keyed_foldl_mergeMemoryField hpath ((hupdate.pop "updated_by").pop
    "actor").values
  have hcontent : Dict.Keyed merged := by
    unfold mergeMemoryContent at hmerged
    split at hmerged
    · simp only [bind_eq_ok, pure_eq_ok] at hmerged
      obtain ⟨-, -, rfl⟩ := hmerged
      exact keyed_contentMetadata (hloop.set _ rfl) _
    · cases hmerged
      exact hloop
  exact (((hcontent.set _ rfl).set _ rfl).set _ rfl).setdefault _ rfl

theorem memoryPayload_path_find
    {py : Interpreter} {now : Time} {body data : Dict}
    (hdata : memoryPayload py now body = .ok data) :
    ∃ path, normalizeMemoryPath py (Dict.get body "path") = .ok path ∧
      Dict.find data "path" = some (.str path) ∧
      Dict.find data "path_key" = some (.str (pathKey path)) := by
  unfold memoryPayload at hdata
  simp only [bind_eq_ok, pure_eq_ok] at hdata
  obtain ⟨path, hpath, -, -, rfl⟩ := hdata
  refine ⟨path, hpath, ?_, ?_⟩ <;>
    simp [Dict.find_pop, Dict.find_setdefault, Dict.update, contentMetadata]

theorem memoryPayload_stored
    {py : Interpreter} {now : Time} {body data : Dict} (hbody : Dict.Keyed body)
    (hdata : memoryPayload py now body = .ok data) : StoredMemory py data := by
  obtain ⟨path, hpath, hfindPath, hfindKey⟩ := memoryPayload_path_find hdata
  unfold memoryPayload at hdata
  simp only [bind_eq_ok, pure_eq_ok, hpath, Except.ok.injEq] at hdata
  obtain ⟨_, rfl, -, -, rfl⟩ := hdata
  refine ⟨?_, ⟨.text path, path, hfindPath, normalizeMemoryPath_idempotent hpath,
    hfindKey⟩, ?_, ?_⟩
  · have hcontent := fun content => keyed_contentMetadata
      (((hbody.set "path" (rfl : (Json.str path).keyed = true)).set "path_key"
        (rfl : (Json.str (pathKey path)).keyed = true)).set "content"
        (rfl : (Json.str content).keyed = true)) content
    exact ((((((((hcontent _).set _ rfl).set _ rfl).set _ rfl).set _ rfl).set _
      rfl).setdefault _ rfl).setdefault _ rfl).pop _
  all_goals
    simp [Dict.find_pop, Dict.find_setdefault, Dict.update, contentMetadata,
      Dict.contains_eq_find]

theorem mergeMemoryData_stored
    {py : Interpreter} {now : Time} {existing data : Dict} {body : MemoryUpdateRequest}
    (hstored : StoredMemory py existing) (hbody : Dict.Keyed body.modelDump)
    (hdata : mergeMemoryData py now existing (memoryUpdate body) = .ok data) :
    StoredMemory py data := by
  have hfields := mergeMemoryData_fields (memoryUpdate_distinct body) hdata
  change MergedFields py existing (sentMemory body) data at hfields
  obtain ⟨held, heldPath, hheld, hheldPath, hheldKey⟩ := hstored.path
  obtain ⟨text, htext⟩ := hstored.content
  have hpath := hfields.field "path" (by decide)
  refine ⟨mergeMemoryData_keyed hstored.keyed (((hbody.pop _).pop _).pop _) hdata,
    ?_, ?_, ?_⟩
  · cases hgiven : Dict.find (sentMemory body) "path" with
    | none =>
        rw [hgiven] at hpath
        exact ⟨held, heldPath, hpath.trans hheld, hheldPath,
          (hfields.samePath (Dict.find_eq_none.mp hgiven)).trans hheldKey⟩
    | some value =>
        obtain ⟨path, hnormalized, hkey⟩ := hfields.newPath (by
          rw [Dict.contains_eq_find, hgiven]
          rfl)
        rw [Dict.get_eq_find, hgiven, Option.getD_some] at hnormalized
        rcases (sentMemory_sent body).path value hgiven with rfl | ⟨given, rfl⟩
        · exact absurd hnormalized normalizeMemoryPath_null
        · have hnonempty : given.toJson ≠ .str "" := by
            intro hempty
            rw [hempty] at hnormalized
            exact normalizeMemoryPath_empty hnormalized
          rw [hgiven, mergedField, if_neg hnonempty] at hpath
          exact ⟨given, path, hpath, hnormalized, hkey⟩
  · rw [hfields.content]
    split
    · exact ⟨_, rfl⟩
    · exact ⟨text, htext⟩
  · rw [Dict.contains_eq_find,
      hfields.metadata hstored.metadata (sentMemory_sent body).metadata]
    cases hgiven : Dict.find (sentMemory body) "metadata" with
    | none =>
        rw [mergedField, ← Dict.contains_eq_find]
        exact hstored.metadata
    | some value =>
        have hnonempty := (sentMemory_sent body).metadata
        rw [Dict.get_eq_find, hgiven, Option.getD_some] at hnonempty
        simp [mergedField, hnonempty]

/-- A property of memory rows which creations, updates and deletions keep. -/
theorem MemoryCommit.forall_memories
    {py : Interpreter} {call : MemoryCall} {view : View} {current next : List Resource}
    {Holds : Resource → Prop}
    (hcurrent : ∀ row ∈ current, row.resourceType = .memory → Holds row)
    (hcreated : ∀ memory version, Creation py call view current memory version →
      Holds memory)
    (hupdated : ∀ before after version, Update py call view current before after version →
      Holds before → Holds after)
    (hdeleted : ∀ before after version,
      Deletion py call view current before after version → Holds before → Holds after)
    (hcommitted : MemoryCommit py call view current next) :
    ∀ row ∈ next, row.resourceType = .memory → Holds row := by
  intro row hrow htype
  have hreplaced : ∀ written, row ∈ replaceRow current written →
      (row = written → Holds row) → Holds row := by
    intro written hmem hwritten
    rcases mem_replaceRow hmem with ⟨hold, -⟩ | hsame
    · exact hcurrent row hold htype
    · exact hwritten hsame
  cases hcommitted with
  | storeAdded store hrequest hfresh hstore =>
      rcases List.mem_append.mp hrow with hold | hnew
      · exact hcurrent row hold htype
      · rw [List.mem_singleton.mp hnew, hstore] at htype
        cases htype
  | storeWritten store written hrequest hmem hstore hfollows =>
      refine hreplaced written hrow fun hsame => ?_
      rw [hsame, hfollows.resourceType, hstore] at htype
      cases htype
  | created memory version hcreation =>
      rcases List.mem_append.mp hrow with hrow | hnew
      · rcases List.mem_append.mp hrow with hold | hnew
        · exact hcurrent row hold htype
        · rw [List.mem_singleton.mp hnew]
          exact hcreated memory version hcreation
      · rw [List.mem_singleton.mp hnew, hcreation.inserted.resourceType] at htype
        cases htype
  | updated before after version hupdate =>
      have hadvance := hupdate.advance
      rcases List.mem_append.mp hrow with hrow | hnew
      · refine hreplaced after hrow fun hsame => ?_
        rw [hsame]
        exact hupdated before after version hupdate
          (hcurrent before hadvance.mem hadvance.resourceType)
      · rw [List.mem_singleton.mp hnew, hadvance.inserted.resourceType] at htype
        cases htype
  | deleted before after version hdeletion =>
      have hadvance := hdeletion.advance
      rcases List.mem_append.mp hrow with hrow | hnew
      · refine hreplaced after hrow fun hsame => ?_
        rw [hsame]
        exact hdeleted before after version hdeletion
          (hcurrent before hadvance.mem hadvance.resourceType)
      · rw [List.mem_singleton.mp hnew, hadvance.inserted.resourceType] at htype
        cases htype
  | redacted before after hrequest hredaction =>
      refine hreplaced after hrow fun hsame => ?_
      rw [hsame, hredaction.row.follows.resourceType,
        hredaction.row.resourceType] at htype
      cases htype

/-- The dictionaries in the body have distinct keys. -/
def MemoryRequest.Keyed : MemoryRequest → Prop
  | .create _ body _ => Dict.Keyed body.modelDump
  | .update _ _ body _ => Dict.Keyed body.modelDump
  | .createStore _ | .updateStore .. | .archiveStore _ | .deleteStore _ | .delete ..
  | .redact .. => True

instance : (request : MemoryRequest) → Decidable request.Keyed
  | .create _ body _ => inferInstanceAs (Decidable (Dict.Keyed body.modelDump))
  | .update _ _ body _ => inferInstanceAs (Decidable (Dict.Keyed body.modelDump))
  | .createStore _ | .updateStore .. | .archiveStore _ | .deleteStore _ | .delete ..
  | .redact .. => isTrue trivial

def StoredMemories (py : Interpreter) (rows : List Resource) : Prop :=
  ∀ row ∈ rows, row.resourceType = .memory → row.deletedAt = none →
    StoredMemory py row.data

theorem MemoryCommit.stored
    {py : Interpreter} {call : MemoryCall} {view : View} {current next : List Resource}
    (hkeyed : call.request.Keyed) (hcurrent : StoredMemories py current)
    (hcommitted : MemoryCommit py call view current next) : StoredMemories py next := by
  refine hcommitted.forall_memories hcurrent ?_ ?_ ?_
  · intro memory version hcreation _
    obtain ⟨storeId, body, viewName, key, hrequest, hdata, -⟩ := hcreation.request
    rw [hrequest] at hkeyed
    exact memoryPayload_stored hkeyed hdata
  · intro before after version hupdate hbefore _
    obtain ⟨storeId, memoryId, body, viewName, key, hrequest, -, -, -, hdata, -⟩ :=
      hupdate.request
    rw [hrequest] at hkeyed
    exact mergeMemoryData_stored (hbefore hupdate.advance.live) hkeyed hdata
  · intro before after version hdeletion _ hlive
    exact absurd hlive hdeletion.deleted

/-- Every live memory in every committed state is a stored one. -/
theorem memory_run_stored
    {py : Interpreter} {calls : List (MemoryCall × List ℕ)} {world : MemoryWorld}
    (hkeyed : ∀ label ∈ calls, label.1.request.Keyed)
    (hrun : run (memoryStep py) MemoryWorld.start calls = some world) :
    ∀ rows ∈ world.history, StoredMemories py rows := by
  have hallowed : AllSteps (memoryStep py) (fun _ label => label.1.request.Keyed)
      MemoryWorld.start calls :=
    (allSteps_mem _ _).mono fun _ label hlabel => hkeyed label hlabel
  have hstart : StoredMemories py [] := fun _ h => absurd h List.not_mem_nil
  have hordered := memory_run_property hstart
    (fun _ _ _ _ hallowed _ _ hcurrent _ hcommitted =>
      hcommitted.stored hallowed hcurrent)
    hallowed hrun
  exact fun rows hrows => (hordered.states rows hrows).2

end ManagedAgents
