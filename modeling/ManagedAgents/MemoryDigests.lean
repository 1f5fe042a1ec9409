import ManagedAgents.MemoryCommits

/-!
# The stored digests of memories

The digest and the size are computed when a memory is created and when an
update carries content.  An update without content may carry them as undeclared
fields, and then they are stored as they are given.
-/

namespace ManagedAgents

open Fallible LabelledRuns ReadCommitted

/-- A live memory, or a version that is neither redacted nor a deletion. -/
def HoldsContent (row : Resource) : Prop :=
  (row.resourceType = .memory ∧ row.deletedAt = none) ∨
    (row.resourceType = .memoryVersion ∧
      Dict.get row.data "operation" ≠ .str "deleted" ∧
      Dict.get row.data "redacted" ≠ .bool true)

def DigestsMatch (rows : List Resource) : Prop :=
  ∀ row ∈ rows, HoldsContent row → DigestMatches row.data

def DIGEST_KEYS : List String :=
  ["content_sha256", "content_size_bytes"]

/-- An update without content gives no digest and no size but the stored ones. -/
def DigestsGiven (call : MemoryCall) (view : View) : Prop :=
  match call.request with
  | .update storeId memoryId body _ =>
      Dict.contains (memoryUpdate body) "content" = false →
      ∀ memory ∈ (mustExist (view 0) call.workspaceId memoryId .memory
        (some storeId)).toOption,
      ∀ key ∈ DIGEST_KEYS, Dict.contains (memoryUpdate body) key = true →
        Dict.get (memoryUpdate body) key = Dict.get memory.data key
  | .createStore _ | .updateStore .. | .archiveStore _ | .deleteStore _ | .create ..
  | .delete .. | .redact .. => True

theorem digestsGiven_of_addsNone
    {call : MemoryCall} {view : View} (hrequest : call.request.addsVersion = false) :
    DigestsGiven call view := by
  unfold DigestsGiven
  split
  next hupdate =>
    rw [hupdate] at hrequest
    cases hrequest
  all_goals trivial

/-! ## Bodies -/

theorem modelDump_distinct
    {declared : List (String × Option Json)} {extra : Dict}
    (hdeclared : (declared.map Prod.fst).Nodup) (hextra : (extra.map Prod.fst).Nodup)
    (hundeclared : ∀ field ∈ extra, field.1 ∉ declared.map Prod.fst) :
    ((modelDump declared extra).map Prod.fst).Nodup := by
  have hset : ((declared.filterMap fun field =>
      field.2.map fun value => (field.1, value)).map Prod.fst).Sublist
        (declared.map Prod.fst) := by
    induction declared with
    | nil => exact List.Sublist.refl _
    | cons field rest ih =>
        have hrest := ih (List.nodup_cons.mp hdeclared).2 (fun other hother hmem =>
          hundeclared other hother (List.mem_cons_of_mem _ hmem))
        obtain ⟨key, value⟩ := field
        cases value with
        | none => exact hrest.cons key
        | some value => exact hrest.cons_cons key
  unfold modelDump
  rw [List.map_append, List.nodup_append]
  refine ⟨hdeclared.sublist hset, hextra, ?_⟩
  rintro key hkey _ hother rfl
  obtain ⟨field, hfield, rfl⟩ := List.mem_map.mp hother
  exact hundeclared field hfield (hset.subset hkey)

theorem memoryUpdate_distinct (body : MemoryUpdateRequest) :
    ((memoryUpdate body).map Prod.fst).Nodup := by
  have hdump : (body.modelDump.map Prod.fst).Nodup :=
    modelDump_distinct (by simp) body.distinct body.undeclared
  unfold memoryUpdate Dict.pop
  exact hdump.sublist
    (((List.filter_sublist.trans List.filter_sublist).trans List.filter_sublist).map _)

/-! ## The merge -/

theorem ne_empty_of_digest
    {data : Dict} (hmatches : DigestMatches data) {key : String}
    (hkey : key ∈ DIGEST_KEYS) :
    Dict.get data key ≠ .str "" ∧ Dict.get data key ≠ .null := by
  obtain ⟨content, -, -, hsha, hsize⟩ := hmatches.content
  simp only [DIGEST_KEYS, List.mem_cons, List.not_mem_nil, or_false] at hkey
  rcases hkey with rfl | rfl
  · rw [hsha]
    refine ⟨?_, by simp⟩
    intro hempty
    have hlength := Sha256.hexdigest_length (utf8 content)
    rw [Json.str.inj hempty] at hlength
    cases hlength
  · rw [hsize]
    simp

/-- Two dictionaries with the same content have the same digests. -/
theorem DigestMatches.iff_of_content
    {data other : Dict} (hmatches : DigestMatches data)
    (hcontent : Dict.get other "content" = Dict.get data "content") :
    DigestMatches other ↔
      ∀ key ∈ DIGEST_KEYS, Dict.get other key = Dict.get data key := by
  constructor
  · intro hother key hkey
    obtain ⟨content, hdata, -, hsha, hsize⟩ := hmatches.content
    obtain ⟨otherContent, hotherData, -, hotherSha, hotherSize⟩ := hother.content
    obtain rfl : content = otherContent :=
      Json.str.inj (hdata.symm.trans (hcontent.symm.trans hotherData))
    simp only [DIGEST_KEYS, List.mem_cons, List.not_mem_nil, or_false] at hkey
    rcases hkey with rfl | rfl
    · rw [hsha, hotherSha]
    · rw [hsize, hotherSize]
  · intro hsame
    apply hmatches.of_get
    intro key hkey
    rcases List.mem_cons.mp hkey with rfl | hkey
    · exact hcontent
    · exact hsame key hkey

theorem MergedData.digest_iff
    {py : Interpreter} {existing update data : Dict}
    (hmerged : MergedData py existing update data) (hmatches : DigestMatches existing)
    (hdistinct : (update.map Prod.fst).Nodup)
    (hcontent : Dict.contains update "content" = false) :
    DigestMatches data ↔ ∀ key ∈ DIGEST_KEYS, Dict.contains update key = true →
      Dict.get update key = Dict.get existing key := by
  rw [hmatches.iff_of_content (hmerged.sameContent hcontent)]
  apply forall₂_congr
  intro key hkey
  by_cases hgiven : Dict.contains update key = true
  · obtain ⟨hempty, hnull⟩ := ne_empty_of_digest hmatches hkey
    rw [hmerged.given key hkey hcontent hdistinct hgiven]
    split
    next hremoved =>
      -- an empty value removes the key
      refine iff_of_false (fun hsame => hnull hsame.symm) ?_
      intro hsame
      exact hempty ((hsame hgiven).symm.trans hremoved)
    next => exact ⟨fun hsame _ => hsame, fun hsame => hsame hgiven⟩
  · rw [Bool.not_eq_true] at hgiven
    rw [hmerged.kept key hkey hcontent hgiven]
    simp [hgiven]

theorem memoryVersionData_digest
    {memory : Resource} {version : ℤ} {actor operation : String} {data : Dict}
    (hmatches : DigestMatches data) :
    DigestMatches (memoryVersionData memory version actor operation data) :=
  hmatches.of_get fun _ hkey =>
    memoryVersionData_content memory version actor operation data hkey

/-! ## Commits -/

theorem digestsMatch_append
    {rows : List Resource} {row : Resource} :
    DigestsMatch (rows ++ [row]) ↔
      DigestsMatch rows ∧ (HoldsContent row → DigestMatches row.data) := by
  simp [DigestsMatch, or_imp, forall_and]

theorem digestsMatch_replaceRow
    {rows : List Resource} {row written : Resource} (hdigests : DigestsMatch rows)
    (hrow : row ∈ rows) (hid : row.id = written.id) :
    DigestsMatch (replaceRow rows written) ↔
      (HoldsContent written → DigestMatches written.data) := by
  constructor
  · intro hnext
    exact hnext written (mem_replaceRow_self hrow hid)
  · intro hwritten other hother
    rcases mem_replaceRow hother with ⟨hmem, -⟩ | rfl
    · exact hdigests other hmem
    · exact hwritten

theorem Creation.digests
    {py : Interpreter} {call : MemoryCall} {view : View} {current : List Resource}
    {memory version : Resource} (hdigests : DigestsMatch current)
    (hcreation : Creation py call view current memory version) :
    DigestsMatch (current ++ [memory] ++ [version]) := by
  obtain ⟨storeId, body, viewName, key, -, hdata, -⟩ := hcreation.request
  obtain ⟨actor, hversion⟩ := hcreation.versionData
  have hmatches := (memoryPayload_created hdata).digest
  rw [digestsMatch_append, digestsMatch_append]
  refine ⟨⟨hdigests, fun _ => hmatches⟩, fun _ => ?_⟩
  rw [hversion]
  exact memoryVersionData_digest hmatches

theorem Update.digests_iff
    {py : Interpreter} {call : MemoryCall} {view : View} {current : List Resource}
    {before after version : Resource} (hdigests : DigestsMatch current)
    (hupdate : Update py call view current before after version) :
    DigestsMatch (replaceRow current after ++ [version]) ↔ DigestsGiven call view := by
  obtain ⟨storeId, memoryId, body, viewName, key, hrequest, hexists, -, -, hdata, -⟩ :=
    hupdate.request
  obtain ⟨actor, hversion⟩ := hupdate.versionData
  have hadvance := hupdate.advance
  have hmerged := mergeMemoryData_merged hdata
  have hholds : HoldsContent after :=
    Or.inl ⟨hadvance.follows.resourceType.trans hadvance.resourceType, hupdate.live⟩
  have hbefore : DigestMatches before.data :=
    hdigests before hadvance.mem (Or.inl ⟨hadvance.resourceType, hadvance.live⟩)
  have hnext : DigestsMatch (replaceRow current after ++ [version]) ↔
      DigestMatches after.data := by
    rw [digestsMatch_append,
      digestsMatch_replaceRow hdigests hadvance.mem hadvance.follows.id.symm]
    constructor
    · rintro ⟨hwritten, -⟩
      exact hwritten hholds
    · intro hmatches
      refine ⟨fun _ => hmatches, fun _ => ?_⟩
      rw [hversion]
      exact memoryVersionData_digest hmatches
  rw [hnext]
  unfold DigestsGiven
  rw [hrequest]
  simp only [hexists, Except.toOption, Option.mem_def, Option.some.injEq, forall_eq']
  by_cases hcontent : Dict.contains (memoryUpdate body) "content" = true
  · refine iff_of_true (hmerged.newContent hcontent) ?_
    intro habsent
    rw [hcontent] at habsent
    cases habsent
  · rw [Bool.not_eq_true] at hcontent
    rw [hmerged.digest_iff hbefore (memoryUpdate_distinct body) hcontent]
    simp [hcontent]

theorem not_holdsContent_of_type
    {row : Resource} (hmemory : row.resourceType ≠ .memory)
    (hversion : row.resourceType ≠ .memoryVersion) : ¬HoldsContent row := by
  rintro (⟨htype, -⟩ | ⟨htype, -⟩)
  · exact hmemory htype
  · exact hversion htype

theorem Deletion.digests
    {py : Interpreter} {call : MemoryCall} {view : View} {current : List Resource}
    {before after version : Resource} (hdigests : DigestsMatch current)
    (hdeletion : Deletion py call view current before after version) :
    DigestsMatch (replaceRow current after ++ [version]) := by
  have hadvance := hdeletion.advance
  rw [digestsMatch_append,
    digestsMatch_replaceRow hdigests hadvance.mem hadvance.follows.id.symm]
  constructor
  · rintro (⟨-, hlive⟩ | ⟨htype, -⟩)
    · exact absurd hlive hdeletion.deleted
    · rw [hadvance.follows.resourceType, hadvance.resourceType] at htype
      cases htype
  · rintro (⟨htype, -⟩ | ⟨-, hoperation, -⟩)
    · rw [hadvance.inserted.resourceType] at htype
      cases htype
    · exact absurd hdeletion.versionData hoperation

theorem Redaction.digests
    {current : List Resource} {before after : Resource} (hdigests : DigestsMatch current)
    (hredaction : Redaction current before after) :
    DigestsMatch (replaceRow current after) := by
  have hrow := hredaction.row
  rw [digestsMatch_replaceRow hdigests hrow.mem hrow.follows.id.symm]
  rintro (⟨htype, -⟩ | ⟨-, hoperation, hredacted⟩)
  · rw [hrow.follows.resourceType, hrow.resourceType] at htype
    cases htype
  · rcases hredaction.data with hsame | hmarked
    · rw [hsame] at hoperation hredacted ⊢
      exact hdigests before hrow.mem (Or.inr ⟨hrow.resourceType, hoperation, hredacted⟩)
    · exact absurd hmarked hredacted

theorem MemoryCommit.digests_iff
    {py : Interpreter} {call : MemoryCall} {view : View} {current next : List Resource}
    (hdigests : DigestsMatch current)
    (hcommitted : MemoryCommit py call view current next) :
    DigestsMatch next ↔ DigestsGiven call view := by
  cases hcommitted with
  | storeAdded store hrequest hfresh htype =>
      refine iff_of_true (digestsMatch_append.mpr ⟨hdigests, ?_⟩)
        (digestsGiven_of_addsNone hrequest)
      exact fun hholds =>
        absurd hholds (not_holdsContent_of_type (by simp [htype]) (by simp [htype]))
  | storeWritten store written hrequest hstore htype hfollows =>
      refine iff_of_true
        ((digestsMatch_replaceRow hdigests hstore hfollows.id.symm).mpr ?_)
        (digestsGiven_of_addsNone hrequest)
      exact fun hholds => absurd hholds (not_holdsContent_of_type
        (by simp [hfollows.resourceType, htype]) (by simp [hfollows.resourceType, htype]))
  | created memory version hcreation =>
      obtain ⟨storeId, body, viewName, key, hrequest, -⟩ := hcreation.request
      exact iff_of_true (hcreation.digests hdigests) (by simp [DigestsGiven, hrequest])
  | updated before after version hupdate => exact hupdate.digests_iff hdigests
  | deleted before after version hdeletion =>
      obtain ⟨storeId, memoryId, expected, hrequest, -⟩ := hdeletion.request
      exact iff_of_true (hdeletion.digests hdigests) (by simp [DigestsGiven, hrequest])
  | redacted before after hrequest hredaction =>
      exact iff_of_true (hredaction.digests hdigests) (digestsGiven_of_addsNone hrequest)

theorem memory_digests_iff
    {py : Interpreter} {calls : List (MemoryCall × List ℕ)} {world : MemoryWorld}
    (hrun : run (memoryStep py) MemoryWorld.start calls = some world) :
    (∀ rows ∈ world.history, DigestsMatch rows) ↔
      AllSteps (memoryStep py) (WhenCommitted py DigestsGiven) MemoryWorld.start calls :=
  memory_run_iff (fun _ h => absurd h List.not_mem_nil)
    (fun _ _ _ _ _ _ hcurrent hcommitted => hcommitted.digests_iff hcurrent) hrun

/-- An update which gives a digest of its own and something that is written. -/
def sampleForgedDigest : List (MemoryCall × List ℕ) :=
  [sampleStore, sampleMemory "b" "draft" [],
   (sampleCall "c" (.update "memstore_a0" "mem_b0"
      { metadata := some (some [("label", .str "x")])
        extra := [("content_sha256", .str "forged")] } none), [])]

def sampleForgedDigestWorld : MemoryWorld :=
  (run (memoryStep sampleInterpreter) MemoryWorld.start sampleForgedDigest).get
    (by decide +kernel)

theorem sample_memory_digests_iff :
    (∀ rows ∈ sampleForgedDigestWorld.history, DigestsMatch rows) ↔
      AllSteps (memoryStep sampleInterpreter)
        (WhenCommitted sampleInterpreter DigestsGiven)
        MemoryWorld.start sampleForgedDigest :=
  memory_digests_iff (Option.some_get _).symm

theorem sample_digest_forged :
    run (memoryStep sampleInterpreter) MemoryWorld.start sampleForgedDigest =
        some sampleForgedDigestWorld ∧
      ¬DigestsMatch sampleForgedDigestWorld.current := by
  refine ⟨(Option.some_get _).symm, fun hdigests => ?_⟩
  have hforged : ∃ memory ∈ sampleForgedDigestWorld.current,
      (memory.resourceType = .memory ∧ memory.deletedAt = none) ∧
        Dict.get memory.data "content_sha256" = .str "forged" := by decide +kernel
  obtain ⟨memory, hmemory, hlive, hsha⟩ := hforged
  obtain ⟨content, -, -, hdigest, -⟩ := (hdigests memory hmemory (Or.inl hlive)).content
  have hlength := Sha256.hexdigest_length (utf8 content)
  rw [← Json.str.inj (hsha.symm.trans hdigest)] at hlength
  cases hlength

end ManagedAgents
