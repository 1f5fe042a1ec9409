import ManagedAgents.MemoryCommits

/-!
# The version chain of a memory

The versions of a memory are numbered without a gap up to the number in its
row, tell what was done to it, and the last one records the live row.  Every
committed update and deletion is computed from the last version.
-/

namespace ManagedAgents

open Fallible LabelledRuns ReadCommitted

structure LinearHistory (rows : List Resource) (memory : Resource) : Prop where
  numbers : ∃ count : ℕ, Dict.get memory.data "version" = .int count ∧
    (versionsOf rows memory.id).map ManagedResource.version = versionNumbers count ∧
      ((versionsOf rows memory.id).map fun version => Dict.get version.data "operation") =
        historyOperations memory.deletedAt.isSome count
  recorded : memory.deletedAt = none → ∃ last snapshot,
    (versionsOf rows memory.id).getLast? = some last ∧
      Dict.get last.data "snapshot" = .dict snapshot ∧
      Dict.get snapshot "content" = Dict.get memory.data "content" ∧
      Dict.get snapshot "path" = Dict.get memory.data "path"

/-- The row that was read is the current one and its last version records it. -/
structure ReadsLast (current : List Resource) (memory last : Resource) (snapshot : Dict) :
    Prop where
  mem : memory ∈ current
  newest : (versionsOf current memory.id).getLast? = some last
  recorded : Dict.get last.data "snapshot" = .dict snapshot
  data : snapshot = memorySnapshot memory.data

/-- The preconditions of the request hold of the last version, the memory is
computed from the row which that version records, and a version is added to it. -/
def ContinuesHistory (py : Interpreter) (call : MemoryCall) (view : View)
    (current next : List Resource) : Prop :=
  match call.request with
  | .update storeId memoryId body _ =>
      ∃ memory last snapshot after version,
        mustExist (view 0) call.workspaceId memoryId .memory (some storeId) = .ok memory ∧
        ReadsLast current memory last snapshot ∧
        (expectedMemoryVersion body = .null ∨ ∃ number,
          py.toInt (expectedMemoryVersion body) = .ok number ∧
            last.version = some number) ∧
        contentPreconditionStale (Dict.get body.modelDump "precondition") snapshot =
          false ∧
        mergeMemoryData py (call.supply.clock 0) memory.data (memoryUpdate body) =
          .ok after.data ∧
        after ∈ next ∧ after.id = memoryId ∧
        versionsOf next memoryId = versionsOf current memoryId ++ [version]
  | .delete storeId memoryId expected =>
      ∃ memory last snapshot after version,
        mustExist (view 1) call.workspaceId memoryId .memory (some storeId) = .ok memory ∧
        ReadsLast current memory last snapshot ∧
        (expected.any fun digest =>
          !Json.equal (.str digest) (Dict.get snapshot "content_sha256")) = false ∧
        after ∈ next ∧ after.id = memoryId ∧ after.deletedAt ≠ none ∧
        versionsOf next memoryId = versionsOf current memoryId ++ [version]
  | _ => True

theorem History.linear
    {rows : List Resource} {memory : Resource} (hhistory : History rows memory) :
    LinearHistory rows memory where
  numbers := ⟨_, hhistory.count, hhistory.numbers, hhistory.operations⟩
  recorded := by
    intro hlive
    obtain ⟨last, hlast, hsnapshot⟩ := hhistory.recorded hlive
    exact ⟨last, _, hlast, hsnapshot, memorySnapshot_get (by decide),
      memorySnapshot_get (by decide)⟩

theorem checkMemoryVersion_eq_ok
    {py : Interpreter} {expected : Json} {data : Dict} {number : ℤ}
    (hstored : storedMemoryVersion py data = .ok number)
    (hchecked : checkMemoryVersion py expected data = .ok ()) :
    expected = .null ∨ py.toInt expected = .ok number := by
  by_cases hnull : expected = .null
  · exact Or.inl hnull
  · refine Or.inr ?_
    unfold checkMemoryVersion at hchecked
    simp only [bind_eq_ok, hstored, hnull, if_false, pure_eq_ok, raiseIf_eq_ok,
      Except.ok.injEq] at hchecked
    obtain ⟨_, rfl, version, hversion, _, rfl, hsame⟩ := hchecked
    rw [hversion]
    simpa using hsame

theorem Advance.readsLast
    {rows : List Resource} {before after version : Resource} (hrows : MemoryRows rows)
    (hadvance : Advance rows before after version) :
    ∃ last, ReadsLast rows before last (memorySnapshot before.data) ∧
      last.version = some (versionNumber before) := by
  have hhistory := hrows.memories before hadvance.mem hadvance.resourceType
  obtain ⟨last, hlast, hsnapshot⟩ := hhistory.recorded hadvance.live
  exact ⟨last, ⟨hadvance.mem, hlast, hsnapshot, rfl⟩, hhistory.getLast?_version hlast⟩

theorem contentPreconditionStale_snapshot (precondition : Json) (data : Dict) :
    contentPreconditionStale precondition (memorySnapshot data) =
      contentPreconditionStale precondition data := by
  unfold contentPreconditionStale
  rw [memorySnapshot_get (by decide)]

theorem Update.continues
    {py : Interpreter} {call : MemoryCall} {view : View} {current : List Resource}
    {before after version : Resource} (hrows : MemoryRows current)
    (hupdate : Update py call view current before after version) :
    ContinuesHistory py call view current (replaceRow current after ++ [version]) := by
  obtain ⟨storeId, memoryId, body, viewName, key, hrequest, hexists, hchecked, hfresh,
    hdata, -⟩ := hupdate.request
  have hid := (mustExist_found hexists).2.1
  obtain ⟨last, hlast, hnumber⟩ := hupdate.advance.readsLast hrows
  have hhistory := hrows.memories before hupdate.advance.mem hupdate.advance.resourceType
  unfold ContinuesHistory
  rw [hrequest]
  refine ⟨before, last, _, after, version, hexists, hlast, ?_, ?_, hdata, ?_, ?_, ?_⟩
  · rcases checkMemoryVersion_eq_ok hhistory.storedMemoryVersion_eq hchecked with hnull | hsame
    · exact Or.inl hnull
    · exact Or.inr ⟨_, hsame, hnumber⟩
  · rw [contentPreconditionStale_snapshot]
    exact hfresh
  · apply List.mem_append_left
    exact mem_replaceRow_self hupdate.advance.mem hupdate.advance.follows.id.symm
  · exact hupdate.advance.follows.id.trans hid
  · rw [hupdate.advance.versionsOf_eq hrows, if_pos hid]

theorem Deletion.continues
    {py : Interpreter} {call : MemoryCall} {view : View} {current : List Resource}
    {before after version : Resource} (hrows : MemoryRows current)
    (hdeletion : Deletion py call view current before after version) :
    ContinuesHistory py call view current (replaceRow current after ++ [version]) := by
  obtain ⟨storeId, memoryId, expected, hrequest, hexists, hfresh⟩ := hdeletion.request
  have hid := (mustExist_found hexists).2.1
  obtain ⟨last, hlast, -⟩ := hdeletion.advance.readsLast hrows
  unfold ContinuesHistory
  rw [hrequest]
  refine ⟨before, last, _, after, version, hexists, hlast, ?_, ?_, ?_, hdeletion.deleted,
    ?_⟩
  · rw [memorySnapshot_get (by decide)]
    exact hfresh
  · apply List.mem_append_left
    exact mem_replaceRow_self hdeletion.advance.mem hdeletion.advance.follows.id.symm
  · exact hdeletion.advance.follows.id.trans hid
  · rw [hdeletion.advance.versionsOf_eq hrows, if_pos hid]

theorem continues_of_addsNone
    {py : Interpreter} {call : MemoryCall} {view : View} {current next : List Resource}
    (hrequest : call.request.addsVersion = false) :
    ContinuesHistory py call view current next := by
  unfold ContinuesHistory
  split
  next hupdate =>
    rw [hupdate] at hrequest
    cases hrequest
  next hdelete =>
    rw [hdelete] at hrequest
    cases hrequest
  next => trivial

def HistoriesLinear (py : Interpreter) (world : MemoryWorld) : Prop :=
  (∀ rows ∈ world.history, ∀ memory ∈ rows, memory.resourceType = .memory →
    LinearHistory rows memory) ∧
  ∀ call ages next, Admissible world ages →
    call.body py (world.view ages) world.current = some next →
    ContinuesHistory py call (world.view ages) world.current next

theorem memory_history_linear
    {py : Interpreter} {calls : List (MemoryCall × List ℕ)} {world : MemoryWorld}
    (hrun : run (memoryStep py) MemoryWorld.start calls = some world) :
    HistoriesLinear py world := by
  have hordered := memory_run_ordered hrun
  constructor
  · intro rows hrows memory hmemory htype
    exact ((hordered.states rows hrows).1.memories memory hmemory htype).linear
  · intro call ages next hages hbody
    have hseen := seen_of_ordered hordered hages
    cases MemoryCall.committed hseen hbody with
    | storeAdded store hrequest hfresh htype => exact continues_of_addsNone hrequest
    | storeWritten store written hrequest hstore htype hfollows =>
        exact continues_of_addsNone hrequest
    | created memory version hcreation =>
        obtain ⟨storeId, body, viewName, key, hrequest, -⟩ := hcreation.request
        simp [ContinuesHistory, hrequest]
    | updated before after version hupdate => exact hupdate.continues hseen.rows
    | deleted before after version hdeletion => exact hdeletion.continues hseen.rows
    | redacted before after hrequest hredaction => exact continues_of_addsNone hrequest

/-- Of two updates which read the same version one is committed. -/
def sampleUpdates : List (MemoryCall × List ℕ) :=
  [sampleStore, sampleMemory "b" "draft" [], sampleRewrite "c" "final" [],
   sampleRewrite "d" "other" [1]]

def sampleUpdatesWorld : MemoryWorld :=
  (run (memoryStep sampleInterpreter) MemoryWorld.start sampleUpdates).get
    (by decide +kernel)

theorem sample_memory_history_linear :
    HistoriesLinear sampleInterpreter sampleUpdatesWorld :=
  memory_history_linear (Option.some_get _).symm

end ManagedAgents
