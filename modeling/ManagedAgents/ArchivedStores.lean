import ManagedAgents.MemoryCommits
import ManagedAgents.MemoryReads

/-!
# Writes to archived memory stores

Creations and deletions of memories look at the archive mark of the store.  An
update, a redaction and an update of the store itself do not, so they are
rejected only by their other checks.  Reads do not look at the mark either.
-/

namespace ManagedAgents

open Fallible LabelledRuns ReadCommitted

def ArchivedStore (storeId : String) (rows : List Resource) : Prop :=
  ∃ store ∈ rows, store.id = storeId ∧ store.resourceType = .memoryStore ∧
    store.archivedAt ≠ none

instance (storeId : String) (rows : List Resource) :
    Decidable (ArchivedStore storeId rows) :=
  inferInstanceAs (Decidable (∃ store ∈ rows, _))

/-- The store to whose rows the request would write. -/
def MemoryRequest.writesIn : MemoryRequest → Option String
  | .create storeId _ _ => some storeId
  | .update storeId _ _ _ => some storeId
  | .delete storeId _ _ => some storeId
  | .redact storeId _ => some storeId
  | .updateStore storeId _ => some storeId
  | .createStore _ | .archiveStore _ | .deleteStore _ => none

/-- The row of the response; a commit which violates a constraint is an error too. -/
def MemoryCall.answer (py : Interpreter) (call : MemoryCall) (view : View)
    (current : List Resource) : Except HTTPException Resource := do
  let outcome ← call.handle py view
  match commit current outcome.statements with
  | some _ => return outcome.shown
  | none => throw internalServerError

/-- The request ends with an error and changes no row. -/
def Rejected (py : Interpreter) (call : MemoryCall) (view : View)
    (current : List Resource) : Prop :=
  (∃ error, call.answer py view current = .error error) ∧
    call.body py view current = none

/-! ## The checks which remain -/

/-- The identifier and the number of the next version are still free. -/
def NextVersionFree (supply : Supply) (memory : Resource)
    (current : List Resource) : Prop :=
  ∀ other ∈ current, other.id ≠ supply.newId .memoryVersion 0 ∧
    ¬(other.resourceType = .memoryVersion ∧ other.parentId = some memory.id ∧
      other.version = some (versionNumber memory + 1))

/-- The merged data ask for nothing new, or the path and the version are free. -/
def ChangeAllowed (supply : Supply) (workspaceId storeId : String) (memory : Resource)
    (data : Dict) (view : View) (current : List Resource) : Prop :=
  memoryHasMaterialChange memory.data data = true →
    checkMemoryPath (view 1) workspaceId storeId memory.id memory.data data = .ok () ∧
      NextVersionFree supply memory current

def UpdateChecksPass (py : Interpreter) (supply : Supply)
    (workspaceId storeId memoryId : String) (body : MemoryUpdateRequest)
    (viewName : Option String) (view : View) (current : List Resource) : Prop :=
  (∃ name, normalizeMemoryView viewName = .ok name) ∧
  ∃ memory, mustExist (view 0) workspaceId memoryId .memory (some storeId) = .ok memory ∧
    checkMemoryVersion py (expectedMemoryVersion body) memory.data = .ok () ∧
    if contentPreconditionStale (Dict.get body.modelDump "precondition") memory.data then
      memoryRequestedStateMatchesCurrent py memory.data (memoryUpdate body) = .ok true
    else ∃ data,
      mergeMemoryData py (supply.clock 0) memory.data (memoryUpdate body) = .ok data ∧
        ChangeAllowed supply workspaceId storeId memory data view current

def RedactionChecksPass (py : Interpreter) (supply : Supply)
    (workspaceId storeId versionId : String) (view : View) : Prop :=
  (∃ store, mustExist (view 0) workspaceId storeId .memoryStore none = .ok store) ∧
  ∃ version memory,
    findMemoryVersion view 1 workspaceId storeId versionId = .ok (version, memory) ∧
    isLiveMemoryVersion py memory version = .ok false ∧
    ∃ data, redactedVersionData py (supply.clock 0) version.data = .ok data

def StoreUpdateChecksPass (py : Interpreter) (workspaceId storeId : String)
    (body : MemoryStoreUpdateRequest) (view : View) : Prop :=
  ∃ store, mustExist (view 0) workspaceId storeId .memoryStore none = .ok store ∧
    ∃ merged, mergeData store.data body.modelDump = .ok merged ∧
      ∃ data, normalizeMemoryStoreData py merged = .ok data ∧
        ∃ name, nameOr (resourceName data) store.name = .ok name

/-- A write whose checks leave the archive mark out passes all of them. -/
def UnguardedChecksPass (py : Interpreter) (call : MemoryCall) (view : View)
    (current : List Resource) : Prop :=
  match call.request with
  | .update storeId memoryId body viewName =>
      UpdateChecksPass py call.supply call.workspaceId storeId memoryId body viewName view
        current
  | .redact storeId versionId =>
      RedactionChecksPass py call.supply call.workspaceId storeId versionId view
  | .updateStore storeId body =>
      StoreUpdateChecksPass py call.workspaceId storeId body view
  | .createStore _ | .archiveStore _ | .deleteStore _ | .create .. | .delete .. => False

/-! ## Answers -/

theorem rejected_iff
    {py : Interpreter} {call : MemoryCall} {view : View} {current : List Resource} :
    Rejected py call view current ↔ ∀ outcome, call.handle py view = .ok outcome →
      commit current outcome.statements = none := by
  unfold Rejected MemoryCall.answer MemoryCall.body
  cases call.handle py view with
  | error error => simp [bind_eq_error]
  | ok outcome =>
      cases hcommit : commit current outcome.statements with
      | some next =>
          refine iff_of_false ?_ (by simp [hcommit])
          rintro ⟨⟨error, herror⟩, -⟩
          simp [bind_eq_error, hcommit, pure, Except.pure] at herror
      | none =>
          refine iff_of_true ⟨⟨internalServerError, ?_⟩, by simp [hcommit]⟩
            (by simp [hcommit])
          simp [bind_eq_error, hcommit, throw, throwThe, MonadExceptOf.throw]

/-- The mark is seen wherever the store is looked up for a write. -/
theorem not_mustWriteMemoryStore
    {rows : List Resource} {workspaceId storeId : String} {store : Resource}
    (hids : (rows.map ManagedResource.id).Nodup)
    (harchived : ArchivedStore storeId rows) :
    mustWriteMemoryStore rows workspaceId storeId ≠ .ok store := by
  intro hstore
  unfold mustWriteMemoryStore at hstore
  simp only [bind_eq_ok, raiseIf_eq_ok, ne_eq, not_not, pure_eq_ok] at hstore
  obtain ⟨found, hexists, _, hactive, rfl⟩ := hstore
  obtain ⟨archived, hmem, hid, -, hmark⟩ := harchived
  obtain ⟨hfound, hfoundId, -⟩ := mustExist_found hexists
  obtain rfl := List.inj_on_of_nodup_map hids hmem hfound (hid.trans hfoundId.symm)
  exact hmark hactive

theorem createMemory_rejected
    {py : Interpreter} {supply : Supply} {workspaceId storeId : String}
    {body : MemoryCreateRequest} {viewName : Option String} {view : View}
    {outcome : Outcome}
    (hids : ((view 0).map ManagedResource.id).Nodup)
    (harchived : ArchivedStore storeId (view 0)) :
    createMemory py supply workspaceId storeId body viewName view ≠ .ok outcome := by
  intro houtcome
  unfold createMemory at houtcome
  simp only [bind_eq_ok] at houtcome
  obtain ⟨-, -, store, hstore, -⟩ := houtcome
  exact not_mustWriteMemoryStore hids harchived hstore

theorem deleteMemory_rejected
    {py : Interpreter} {supply : Supply} {workspaceId storeId memoryId : String}
    {expected : Option String} {view : View} {outcome : Outcome}
    (hids : ((view 0).map ManagedResource.id).Nodup)
    (harchived : ArchivedStore storeId (view 0)) :
    deleteMemory py supply workspaceId storeId memoryId expected view ≠ .ok outcome := by
  intro houtcome
  unfold deleteMemory at houtcome
  simp only [bind_eq_ok] at houtcome
  obtain ⟨store, hstore, -⟩ := houtcome
  exact not_mustWriteMemoryStore hids harchived hstore

/-! ## Updates of memories -/

theorem writeMemory_committed_iff
    {py : Interpreter} {supply : Supply} {workspaceId key : String} {memory : Resource}
    {data : Dict} {current : List Resource} (hkey : Dict.get data "path_key" = .str key)
    (hnumber : Dict.get data "version" = .int (versionNumber memory + 1)) :
    ∃ outcome, writeMemory py supply workspaceId memory data = .ok outcome ∧
      ((∃ next, commit current outcome.statements = some next) ↔
        NextVersionFree supply memory current) := by
  unfold writeMemory
  simp only [bind_eq_ok, memoryPathKey_eq_ok, hkey, hnumber, toInt_int, pure_eq_ok,
    Json.str.injEq, Except.ok.injEq, exists_eq_left']
  simp only [updateResource, Dict.equal_self, if_true, commit_insert, commit_update,
    commit_nil, Option.some.injEq, conflicts_updateRow, exists_and_left, exists_eq',
    and_true]
  unfold NextVersionFree
  apply forall₂_congr
  intro other _
  simp only [conflicts, createMemoryVersion, createResource, ne_eq, reduceCtorEq,
    not_false_eq_true, and_true, decide_eq_false_iff_not, not_or]
  constructor
  · rintro ⟨hid, hnot⟩
    exact ⟨fun h => hid h.symm, fun h => hnot ⟨h.1.symm, h.2.1.symm, h.2.2.symm⟩⟩
  · rintro ⟨hid, hnot⟩
    exact ⟨fun h => hid h.symm, fun h => hnot ⟨h.1.symm, h.2.1.symm, h.2.2.symm⟩⟩

/-- The merged data of a live memory have a path key and the next number. -/
theorem History.merged
    {py : Interpreter} {rows : List Resource} {memory : Resource} {now : Time}
    {update data : Dict} (hhistory : History rows memory)
    (hdata : mergeMemoryData py now memory.data update = .ok data) :
    ∃ key, Dict.get data "path_key" = .str key ∧
      Dict.get data "version" = .int (versionNumber memory + 1) := by
  have hmerged := mergeMemoryData_merged hdata
  obtain ⟨number, hstored, hnumber⟩ := hmerged.version
  rw [hhistory.storedMemoryVersion_eq, Except.ok.injEq] at hstored
  subst hstored
  by_cases hpath : Dict.contains update "path" = true
  · obtain ⟨path, -, hkey⟩ := hmerged.newPath hpath
    exact ⟨_, hkey, hnumber⟩
  · rw [Bool.not_eq_true] at hpath
    obtain ⟨key, hkey, -⟩ := hhistory.key
    exact ⟨key, (hmerged.samePath hpath).trans hkey, hnumber⟩

theorem answerStaleContent_iff
    {py : Interpreter} {memory : Resource} {update : Dict} {current : List Resource} :
    (∃ outcome, answerStaleContent py memory update = .ok outcome ∧
        ∃ next, commit current outcome.statements = some next) ↔
      memoryRequestedStateMatchesCurrent py memory.data update = .ok true := by
  unfold answerStaleContent
  simp only [bind_eq_ok, raiseIf_eq_ok, pure_eq_ok]
  constructor
  · rintro ⟨outcome, ⟨inEffect, heffect, -, hholds, -⟩, -⟩
    rw [heffect]
    simpa using hholds
  · intro heffect
    exact ⟨_, ⟨true, heffect, (), by simp, rfl⟩, current, rfl⟩

/-- The end of an update, when the preconditions hold. -/
theorem changeMemory_iff
    {py : Interpreter} {supply : Supply} {workspaceId storeId : String}
    {memory : Resource}
    {update : Dict} {view : View} {current : List Resource} {rows : List Resource}
    (hhistory : History rows memory) :
    (∃ outcome, (do
        let data ← mergeMemoryData py (supply.clock 0) memory.data update
        if memoryHasMaterialChange memory.data data then
          checkMemoryPath (view 1) workspaceId storeId memory.id memory.data data
          writeMemory py supply workspaceId memory data
        else return { shown := memory }) = Except.ok outcome ∧
          ∃ next, commit current outcome.statements = some next) ↔
      ∃ data, mergeMemoryData py (supply.clock 0) memory.data update = .ok data ∧
        ChangeAllowed supply workspaceId storeId memory data view current := by
  unfold ChangeAllowed
  constructor
  · rintro ⟨outcome, houtcome, hcommitted⟩
    obtain ⟨data, hdata, houtcome⟩ := bind_eq_ok.mp houtcome
    refine ⟨data, hdata, ?_⟩
    intro hmaterial
    rw [if_pos hmaterial] at houtcome
    obtain ⟨⟨⟩, hpath, hwrite⟩ := bind_eq_ok.mp houtcome
    obtain ⟨key, hkey, hnumber⟩ := hhistory.merged hdata
    obtain ⟨written, hwritten, hfree⟩ := writeMemory_committed_iff hkey hnumber
    obtain rfl := Except.ok.inj (hwritten.symm.trans hwrite)
    exact ⟨hpath, hfree.mp hcommitted⟩
  · rintro ⟨data, hdata, hallowed⟩
    obtain ⟨key, hkey, hnumber⟩ := hhistory.merged hdata
    by_cases hmaterial : memoryHasMaterialChange memory.data data = true
    · obtain ⟨hpath, hversion⟩ := hallowed hmaterial
      obtain ⟨written, hwritten, hfree⟩ := writeMemory_committed_iff hkey hnumber
      refine ⟨written, ?_, hfree.mpr hversion⟩
      exact bind_eq_ok.mpr ⟨data, hdata, by
        rw [if_pos hmaterial]
        exact bind_eq_ok.mpr ⟨(), hpath, hwritten⟩⟩
    · refine ⟨{ shown := memory }, ?_, current, rfl⟩
      exact bind_eq_ok.mpr ⟨data, hdata, by rw [if_neg hmaterial]; rfl⟩

theorem updateMemory_iff
    {py : Interpreter} {supply : Supply} {workspaceId storeId memoryId : String}
    {body : MemoryUpdateRequest} {viewName : Option String} {view : View}
    {current : List Resource} (hrows : MemoryRows (view 0)) :
    (∃ outcome, updateMemory py supply workspaceId storeId memoryId body viewName view =
        .ok outcome ∧ ∃ next, commit current outcome.statements = some next) ↔
      UpdateChecksPass py supply workspaceId storeId memoryId body viewName view current := by
  unfold updateMemory UpdateChecksPass
  simp only [bind_eq_ok]
  constructor
  · rintro ⟨outcome, ⟨name, hview, memory, hmemory, ⟨⟩, hchecked, houtcome⟩, hcommitted⟩
    obtain ⟨hmem, -, htype, -⟩ := mustExist_found hmemory
    refine ⟨⟨name, hview⟩, memory, hmemory, hchecked, ?_⟩
    split at houtcome
    next hstale =>
      rw [if_pos hstale]
      exact answerStaleContent_iff.mp ⟨outcome, houtcome, hcommitted⟩
    next hfresh =>
      rw [if_neg hfresh]
      exact (changeMemory_iff (hrows.memories memory hmem htype)).mp
        ⟨outcome, houtcome, hcommitted⟩
  · rintro ⟨⟨name, hview⟩, memory, hmemory, hchecked, hrest⟩
    obtain ⟨hmem, -, htype, -⟩ := mustExist_found hmemory
    by_cases hstale :
        contentPreconditionStale (Dict.get body.modelDump "precondition")
          memory.data = true
    · rw [if_pos hstale] at hrest
      obtain ⟨outcome, houtcome, hcommitted⟩ := answerStaleContent_iff.mpr hrest
      refine ⟨outcome, ⟨name, hview, memory, hmemory, (), hchecked, ?_⟩, hcommitted⟩
      rw [if_pos hstale]
      exact houtcome
    · rw [if_neg hstale] at hrest
      obtain ⟨outcome, houtcome, hcommitted⟩ :=
        (changeMemory_iff (hrows.memories memory hmem htype)).mpr hrest
      refine ⟨outcome, ⟨name, hview, memory, hmemory, (), hchecked, ?_⟩, hcommitted⟩
      rw [if_neg hstale]
      exact houtcome

/-! ## Redactions and updates of the store -/

theorem redactRows_committed (version memory : Resource) (data : Dict)
    (current : List Resource) :
    ∃ next, commit current (redactRows version memory data).statements = some next := by
  simp only [redactRows, updateResource]
  split
  · exact ⟨_, by rw [commit_update, commit_update, commit_nil]⟩
  · exact ⟨_, by rw [commit_update, commit_nil]⟩

theorem redactMemoryVersion_iff
    {py : Interpreter} {supply : Supply} {workspaceId storeId versionId : String}
    {view : View} {current : List Resource} :
    (∃ outcome, redactMemoryVersion py supply workspaceId storeId versionId view =
        .ok outcome ∧ ∃ next, commit current outcome.statements = some next) ↔
      RedactionChecksPass py supply workspaceId storeId versionId view := by
  unfold redactMemoryVersion RedactionChecksPass
  simp only [bind_eq_ok, pure_eq_ok, raiseIf_eq_ok, Bool.not_eq_true]
  constructor
  · rintro ⟨outcome, ⟨store, hstore, ⟨version, memory⟩, hversion, live, hlive, -, rfl,
      data, hdata, -⟩, -⟩
    exact ⟨⟨store, hstore⟩, version, memory, hversion, hlive, data, hdata⟩
  · rintro ⟨⟨store, hstore⟩, version, memory, hversion, hlive, data, hdata⟩
    exact ⟨_, ⟨store, hstore, (version, memory), hversion, false, hlive, (), rfl, data,
      hdata, rfl⟩, redactRows_committed version memory data current⟩

theorem updateMemoryStore_iff
    {py : Interpreter} {workspaceId storeId : String} {body : MemoryStoreUpdateRequest}
    {view : View} {current : List Resource} :
    (∃ outcome, updateMemoryStore py workspaceId storeId body view = .ok outcome ∧
        ∃ next, commit current outcome.statements = some next) ↔
      StoreUpdateChecksPass py workspaceId storeId body view := by
  unfold updateMemoryStore StoreUpdateChecksPass
  simp only [bind_eq_ok, pure_eq_ok]
  constructor
  · rintro ⟨outcome, ⟨store, hstore, merged, hmerged, data, hdata, name, hname, -⟩, -⟩
    exact ⟨store, hstore, merged, hmerged, data, hdata, name, hname⟩
  · rintro ⟨store, hstore, merged, hmerged, data, hdata, name, hname⟩
    refine ⟨_, ⟨store, hstore, merged, hmerged, data, hdata, name, hname, rfl⟩, ?_⟩
    exact ⟨_, by rw [updateResource, commit_update, commit_nil]⟩

/-! ## All requests -/

/-- The row with its archive mark taken off, if it is the store. -/
def unarchived (storeId : String) (row : Resource) : Resource :=
  if row.resourceType = .memoryStore ∧ row.id = storeId then
    { row with archivedAt := none, status := .active }
  else row

theorem keepsColumns_unarchived (storeId : String) :
    KeepsColumns (unarchived storeId) := by
  constructor <;> intro row <;> unfold unarchived <;> split <;> rfl

theorem rejected_iff_of_handle
    {py : Interpreter} {call : MemoryCall} {view : View} {current : List Resource}
    {checksPass : Prop}
    (hhandle : (∃ outcome, call.handle py view = .ok outcome ∧
      ∃ next, commit current outcome.statements = some next) ↔ checksPass) :
    Rejected py call view current ↔ ¬checksPass := by
  rw [rejected_iff, ← hhandle]
  simp only [not_exists, not_and, Option.eq_none_iff_forall_ne_some, ne_eq]

theorem rejected_iff_unguarded
    {py : Interpreter} {call : MemoryCall} {view : View} {current : List Resource}
    {storeId : String} (hrows : MemoryRows (view 0))
    (harchived : ArchivedStore storeId (view 0))
    (haddressed : call.request.writesIn = some storeId) :
    Rejected py call view current ↔ ¬UnguardedChecksPass py call view current := by
  apply rejected_iff_of_handle
  unfold MemoryCall.handle UnguardedChecksPass
  cases hrequest : call.request with
  | createStore body =>
      rw [hrequest] at haddressed
      cases haddressed
  | archiveStore archived =>
      rw [hrequest] at haddressed
      cases haddressed
  | deleteStore deleted =>
      rw [hrequest] at haddressed
      cases haddressed
  | updateStore updated body => exact updateMemoryStore_iff
  | create created body viewName =>
      rw [hrequest] at haddressed
      obtain rfl : created = storeId := Option.some.inj haddressed
      refine iff_of_false ?_ not_false
      rintro ⟨outcome, houtcome, -⟩
      exact createMemory_rejected hrows.ids harchived houtcome
  | update updated memoryId body viewName => exact updateMemory_iff hrows
  | delete deleted memoryId expected =>
      rw [hrequest] at haddressed
      obtain rfl : deleted = storeId := Option.some.inj haddressed
      refine iff_of_false ?_ not_false
      rintro ⟨outcome, houtcome, -⟩
      exact deleteMemory_rejected hrows.ids harchived houtcome
  | redact redacted versionId => exact redactMemoryVersion_iff

/-- A read answers as if the store were not archived. -/
def ReadsAvailable (py : Interpreter) (storeId : String) (view : View) : Prop :=
  ∀ (workspaceId : String) (read : MemoryRead),
    read.find py workspaceId (fun query => (view query).map (unarchived storeId)) =
      (read.find py workspaceId view).map (List.map (unarchived storeId))

theorem archived_store_rejects_iff
    {py : Interpreter} {calls : List (MemoryCall × List ℕ)} {world : MemoryWorld}
    (hrun : run (memoryStep py) MemoryWorld.start calls = some world)
    {ages : List ℕ} (hages : Admissible world ages) {storeId : String}
    (harchived : ∀ query, ArchivedStore storeId (world.view ages query))
    {call : MemoryCall} (haddressed : call.request.writesIn = some storeId) :
    (Rejected py call (world.view ages) world.current ↔
      ¬UnguardedChecksPass py call (world.view ages) world.current) ∧
    ReadsAvailable py storeId (world.view ages) := by
  have hseen := seen_of_ordered (memory_run_ordered hrun) hages
  refine ⟨rejected_iff_unguarded (hseen.views 0) (harchived 0) haddressed, ?_⟩
  intro workspaceId read
  exact (keepsColumns_unarchived storeId).find_eq py workspaceId (world.view ages) read

def sampleArchival : List (MemoryCall × List ℕ) :=
  [sampleStore, sampleMemory "b" "draft" [],
   (sampleCall "c" (.archiveStore "memstore_a0"), [])]

def sampleArchivalWorld : MemoryWorld :=
  (run (memoryStep sampleInterpreter) MemoryWorld.start sampleArchival).get
    (by decide)

theorem sampleArchival_archived :
    ArchivedStore "memstore_a0" sampleArchivalWorld.current := by decide

/-- An update which comes after the archive request. -/
def sampleLateRewrite : MemoryCall :=
  (sampleRewrite "d" "final" []).1

theorem sample_archived_store_rejects_iff :
    (Rejected sampleInterpreter sampleLateRewrite (sampleArchivalWorld.view [])
        sampleArchivalWorld.current ↔
      ¬UnguardedChecksPass sampleInterpreter sampleLateRewrite
        (sampleArchivalWorld.view [])
        sampleArchivalWorld.current) ∧
    ReadsAvailable sampleInterpreter "memstore_a0" (sampleArchivalWorld.view []) :=
  archived_store_rejects_iff (Option.some_get _).symm (by decide)
    (fun _ => sampleArchival_archived) rfl

theorem sample_archived_store_written :
    run (memoryStep sampleInterpreter) MemoryWorld.start sampleArchival =
        some sampleArchivalWorld ∧
      ArchivedStore "memstore_a0" sampleArchivalWorld.current ∧
      sampleLateRewrite.request.writesIn = some "memstore_a0" ∧
      ¬Rejected sampleInterpreter sampleLateRewrite (sampleArchivalWorld.view [])
        sampleArchivalWorld.current := by
  refine ⟨(Option.some_get _).symm, sampleArchival_archived, rfl, fun hrejected => ?_⟩
  have hwritten : (sampleLateRewrite.body sampleInterpreter (sampleArchivalWorld.view [])
      sampleArchivalWorld.current).isSome = true := by decide +kernel
  rw [hrejected.2] at hwritten
  cases hwritten

end ManagedAgents
