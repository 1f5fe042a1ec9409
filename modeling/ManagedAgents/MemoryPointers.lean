import ManagedAgents.MemoryCommits

/-!
# The stored pointer of a memory

The row of a memory names its last version under `memory_version_id`.  The
handlers set the key in the dictionary which the row already holds, so it is
stored for deleted memories only; a live memory keeps what its creation stored.
-/

namespace ManagedAgents

open Fallible LabelledRuns ReadCommitted

/-- A version of the memory with the highest number. -/
structure IsHead (rows : List Resource) (memory version : Resource) : Prop where
  mem : version ∈ versionsOf rows memory.id
  highest : ∀ other ∈ versionsOf rows memory.id, other.version ≤ version.version

def PointsToHead (rows : List Resource) (memory : Resource) : Prop :=
  ∃ head, IsHead rows memory head ∧
    Dict.get memory.data "memory_version_id" = .str head.id

def PointersCurrent (rows : List Resource) : Prop :=
  ∀ memory ∈ rows, memory.resourceType = .memory → memory.deletedAt = none →
    PointsToHead rows memory

/-- A new memory must be given the identifier of its version, and no memory may
be updated. -/
def PointerGiven (call : MemoryCall) (_ : View) : Prop :=
  match call.request with
  | .create _ body _ =>
      Dict.get body.modelDump "memory_version_id" =
        .str (call.supply.newId .memoryVersion 1)
  | .update .. => False
  | .createStore _ | .updateStore .. | .archiveStore _ | .deleteStore _ | .delete ..
  | .redact .. => True

instance : (call : MemoryCall) → (view : View) → Decidable (PointerGiven call view) :=
  fun call _ =>
    match h : call.request with
    | .create _ body _ =>
        decidable_of_iff (Dict.get body.modelDump "memory_version_id" =
          .str (call.supply.newId .memoryVersion 1)) (by simp [PointerGiven, h])
    | .update .. => isFalse (by simp [PointerGiven, h])
    | .createStore _ | .updateStore .. | .archiveStore _ | .deleteStore _ | .delete ..
    | .redact .. => isTrue (by simp [PointerGiven, h])

theorem pointerGiven_of_addsNone
    {call : MemoryCall} {view : View} (hrequest : call.request.addsVersion = false) :
    PointerGiven call view := by
  unfold PointerGiven
  split
  next hcreate =>
    rw [hcreate] at hrequest
    cases hrequest
  next hupdate =>
    rw [hupdate] at hrequest
    cases hrequest
  all_goals trivial

/-! ## Heads -/

theorem History.isHead_iff
    {rows : List Resource} {memory version : Resource}
    (hhistory : History rows memory) :
    IsHead rows memory version ↔
      version ∈ versionsOf rows memory.id ∧
        version.version = some (versionNumber memory) := by
  constructor
  · intro hhead
    refine ⟨hhead.mem, ?_⟩
    obtain ⟨number, hnumber, -, hle⟩ := hhistory.mem_version hhead.mem
    obtain ⟨last, hlast, hlastNumber⟩ :=
      hhistory.exists_version hhistory.versionNumber_pos le_rfl
    have hge := hhead.highest last hlast
    rw [hnumber, hlastNumber, Option.some_le_some] at hge
    rw [hnumber, le_antisymm hle hge]
  · rintro ⟨hmem, hnumber⟩
    refine ⟨hmem, ?_⟩
    intro other hother
    obtain ⟨otherNumber, hotherNumber, -, hle⟩ := hhistory.mem_version hother
    rw [hnumber, hotherNumber]
    exact Option.some_le_some.mpr hle

theorem PointsToHead.of_versionsOf
    {rows next : List Resource} {memory : Resource} (hpoints : PointsToHead rows memory)
    (hsame : versionsOf next memory.id = versionsOf rows memory.id) :
    PointsToHead next memory := by
  obtain ⟨head, hhead, hid⟩ := hpoints
  refine ⟨head, ⟨?_, ?_⟩, hid⟩
  · rw [hsame]
    exact hhead.mem
  · rw [hsame]
    exact hhead.highest

/-! ## Commits -/

/-- A commit keeps the pointers if each memory it leaves live was there before
with the same versions. -/
theorem PointersCurrent.of_kept
    {rows next : List Resource} (hpointers : PointersCurrent rows)
    (hkept : ∀ memory ∈ next, memory.resourceType = .memory → memory.deletedAt = none →
      memory ∈ rows ∧ versionsOf next memory.id = versionsOf rows memory.id) :
    PointersCurrent next := by
  intro memory hmemory htype hlive
  obtain ⟨hmem, hsame⟩ := hkept memory hmemory htype hlive
  exact PointsToHead.of_versionsOf (hpointers memory hmem htype hlive) hsame

theorem Creation.pointers_iff
    {py : Interpreter} {call : MemoryCall} {view : View} {current : List Resource}
    {memory version : Resource} (hrows : MemoryRows current)
    (hpointers : PointersCurrent current)
    (hcreation : Creation py call view current memory version) :
    PointersCurrent (current ++ [memory] ++ [version]) ↔ PointerGiven call view := by
  obtain ⟨storeId, body, viewName, key, hrequest, hdata, -⟩ := hcreation.request
  have hpointer := (memoryPayload_created hdata).pointer
  have hversions :=
    versionsOf_append_memory current hcreation.resourceType hcreation.inserted
  have hown : versionsOf (current ++ [memory] ++ [version]) memory.id = [version] := by
    rw [hversions, hrows.versionsOf_fresh hcreation.fresh, if_pos rfl, List.nil_append]
  have hgiven : PointerGiven call view ↔
      Dict.get memory.data "memory_version_id" = .str version.id := by
    rw [PointerGiven, hrequest, hpointer, hcreation.versionId]
  rw [hgiven]
  constructor
  · intro hnext
    obtain ⟨head, hhead, hid⟩ :=
      hnext memory (by simp) hcreation.resourceType hcreation.live
    have hmem := hhead.mem
    rw [hown, List.mem_singleton] at hmem
    rw [hid, hmem]
  · intro hid other hother htype hlive
    have hcases : other ∈ current ∨ other = memory ∨ other = version := by
      simpa [or_assoc] using hother
    rcases hcases with hmem | rfl | rfl
    · refine PointsToHead.of_versionsOf (hpointers other hmem htype hlive) ?_
      rw [hversions, if_neg (hcreation.fresh other hmem).symm, List.append_nil]
    · refine ⟨version, ⟨?_, ?_⟩, hid⟩
      · rw [hown]
        exact List.mem_singleton_self version
      · rw [hown]
        simp [hcreation.inserted.column]
    · rw [hcreation.inserted.resourceType] at htype
      cases htype

/-- An updated memory still points to the version before. -/
theorem Update.not_pointers
    {py : Interpreter} {call : MemoryCall} {view : View} {current : List Resource}
    {before after version : Resource} (hrows : MemoryRows current)
    (hpointers : PointersCurrent current)
    (hupdate : Update py call view current before after version) :
    ¬PointersCurrent (replaceRow current after ++ [version]) := by
  have hadvance := hupdate.advance
  obtain ⟨storeId, memoryId, body, viewName, key, -, -, -, -, hdata, -⟩ := hupdate.request
  obtain ⟨last, hlast, hlastId⟩ :=
    hpointers before hadvance.mem hadvance.resourceType hadvance.live
  intro hnext
  have hafter : after ∈ replaceRow current after ++ [version] :=
    List.mem_append_left _ (mem_replaceRow_self hadvance.mem hadvance.follows.id.symm)
  obtain ⟨head, hhead, hid⟩ := hnext after hafter
    (hadvance.follows.resourceType.trans hadvance.resourceType) hupdate.live
  have hbefore := hrows.memories before hadvance.mem hadvance.resourceType
  obtain ⟨hmem, hnumber⟩ := (hadvance.history hrows).isHead_iff.mp hhead
  rw [versionNumber_of_get hadvance.number] at hnumber
  rw [hadvance.versionsOf_eq hrows, hadvance.follows.id, if_pos rfl, List.mem_append,
    List.mem_singleton] at hmem
  rcases hmem with hmem | rfl
  · obtain ⟨number, hold, -, hle⟩ := hbefore.mem_version hmem
    rw [hnumber, Option.some.injEq] at hold
    omega
  · rw [(mergeMemoryData_merged hdata).pointer, hlastId, Json.str.injEq] at hid
    exact hadvance.versionFresh last (mem_versionsOf.mp hlast.mem).1 hid

theorem Redaction.pointers
    {current : List Resource} {before after : Resource} (hrows : MemoryRows current)
    (hpointers : PointersCurrent current)
    (hredaction : Redaction current before after) :
    PointersCurrent (replaceRow current after) := by
  have hrow := hredaction.row
  intro memory hmemory htype hlive
  rcases mem_replaceRow hmemory with ⟨hmem, -⟩ | rfl
  · obtain ⟨head, hhead, hid⟩ := hpointers memory hmem htype hlive
    obtain ⟨hheadMem, hnumber⟩ := (hrows.memories memory hmem htype).isHead_iff.mp hhead
    obtain ⟨hheadRow, hheadType, hheadParent⟩ := mem_versionsOf.mp hheadMem
    obtain ⟨later, hlater, hfollows⟩ := hrow.earlier hrows head hheadRow
    refine ⟨later, (hrow.history hrows hmem htype).isHead_iff.mpr ⟨?_, ?_⟩, ?_⟩
    · exact mem_versionsOf.mpr ⟨hlater, hfollows.resourceType.trans hheadType,
        hfollows.parentId.trans hheadParent⟩
    · exact hfollows.version.trans hnumber
    · rw [hid, hfollows.id]
  · rw [hrow.follows.resourceType, hrow.resourceType] at htype
    cases htype

theorem MemoryCommit.pointers_iff
    {py : Interpreter} {call : MemoryCall} {view : View} {current next : List Resource}
    (hrows : MemoryRows current) (hpointers : PointersCurrent current)
    (hcommitted : MemoryCommit py call view current next) :
    PointersCurrent next ↔ PointerGiven call view := by
  cases hcommitted with
  | storeAdded store hrequest hfresh htype =>
      refine iff_of_true (hpointers.of_kept ?_) (pointerGiven_of_addsNone hrequest)
      intro memory hmemory hmemoryType _
      have hne : memory ≠ store := by
        rintro rfl
        rw [htype] at hmemoryType
        cases hmemoryType
      refine ⟨by simpa [hne] using hmemory, ?_⟩
      rw [versionsOf_append]
      simp [versionsOf, htype]
  | storeWritten store written hrequest hstore htype hfollows =>
      refine iff_of_true (hpointers.of_kept ?_) (pointerGiven_of_addsNone hrequest)
      intro memory hmemory hmemoryType _
      rcases mem_replaceRow hmemory with ⟨hmem, -⟩ | rfl
      · exact ⟨hmem,
          versionsOf_replaceRow_of_ne hrows.ids hstore hfollows (by simp [htype]) _⟩
      · rw [hfollows.resourceType, htype] at hmemoryType
        cases hmemoryType
  | created memory version hcreation => exact hcreation.pointers_iff hrows hpointers
  | updated before after version hupdate =>
      obtain ⟨storeId, memoryId, body, viewName, key, hrequest, -⟩ := hupdate.request
      refine iff_of_false (hupdate.not_pointers hrows hpointers) ?_
      simp [PointerGiven, hrequest]
  | deleted before after version hdeletion =>
      obtain ⟨storeId, memoryId, expected, hrequest, -⟩ := hdeletion.request
      refine iff_of_true (hpointers.of_kept ?_) (by simp [PointerGiven, hrequest])
      intro memory hmemory hmemoryType hlive
      rcases List.mem_append.mp hmemory with hmemory | hmemory
      · rcases mem_replaceRow hmemory with ⟨hmem, hne⟩ | rfl
        · refine ⟨hmem, ?_⟩
          rw [hdeletion.advance.follows.id] at hne
          rw [hdeletion.advance.versionsOf_eq hrows, if_neg hne.symm, List.append_nil]
        · exact absurd hlive hdeletion.deleted
      · rw [List.mem_singleton.mp hmemory, hdeletion.advance.inserted.resourceType]
          at hmemoryType
        cases hmemoryType
  | redacted before after hrequest hredaction =>
      exact iff_of_true (hredaction.pointers hrows hpointers)
        (pointerGiven_of_addsNone hrequest)

theorem memory_pointers_iff
    {py : Interpreter} {calls : List (MemoryCall × List ℕ)} {world : MemoryWorld}
    (hrun : run (memoryStep py) MemoryWorld.start calls = some world) :
    (∀ rows ∈ world.history, PointersCurrent rows) ↔
      AllSteps (memoryStep py) (WhenCommitted py PointerGiven) MemoryWorld.start calls :=
  memory_run_iff (fun _ h => absurd h List.not_mem_nil)
    (fun _ _ _ _ hseen _ hcurrent hcommitted =>
      hcommitted.pointers_iff hseen.rows hcurrent) hrun

def sampleCreation : List (MemoryCall × List ℕ) :=
  [sampleStore, sampleMemory "b" "draft" []]

def sampleCreationWorld : MemoryWorld :=
  (run (memoryStep sampleInterpreter) MemoryWorld.start sampleCreation).get
    (by decide)

theorem sample_memory_pointers_iff :
    (∀ rows ∈ sampleCreationWorld.history, PointersCurrent rows) ↔
      AllSteps (memoryStep sampleInterpreter)
        (WhenCommitted sampleInterpreter PointerGiven)
        MemoryWorld.start sampleCreation :=
  memory_pointers_iff (Option.some_get _).symm

/-- The new memory has no pointer. -/
theorem sample_pointer_missing :
    run (memoryStep sampleInterpreter) MemoryWorld.start sampleCreation =
        some sampleCreationWorld ∧
      ¬PointersCurrent sampleCreationWorld.current := by
  refine ⟨(Option.some_get _).symm, fun hpointers => ?_⟩
  have hmissing : ∃ memory ∈ sampleCreationWorld.current,
      (memory.resourceType = .memory ∧ memory.deletedAt = none) ∧
        Dict.get memory.data "memory_version_id" = .null := by decide +kernel
  obtain ⟨memory, hmemory, ⟨htype, hlive⟩, hnull⟩ := hmissing
  obtain ⟨head, -, hid⟩ := hpointers memory hmemory htype hlive
  rw [hnull] at hid
  cases hid

end ManagedAgents
