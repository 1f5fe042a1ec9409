import ManagedAgents.MemoryCommits

/-!
# Paths and capacity of a memory store

Requests look for a free path and for room in the store before they insert,
and no constraint repeats these checks at the commit.  The live memories of a
store keep different path keys and the limit as long as every check still holds
of the rows on which the request commits.
-/

namespace ManagedAgents

open Fallible LabelledRuns ReadCommitted

def isLiveMemoryOf (storeId : String) (row : Resource) : Bool :=
  row.resourceType = .memory ∧ row.parentId = some storeId ∧ row.deletedAt = none

def liveMemories (rows : List Resource) (storeId : String) : List Resource :=
  rows.filter (isLiveMemoryOf storeId)

structure StoreInLimits (rows : List Resource) (storeId : String) : Prop where
  keys : ((liveMemories rows storeId).map fun memory =>
    Dict.get memory.data "path_key").Nodup
  capacity : (liveMemories rows storeId).length ≤ MAX_MEMORIES_PER_STORE
  lookup : ∀ workspaceId key,
    ∃ found, findMemoryByPath rows workspaceId storeId key = .ok found

/-! ## Checks that still hold at the commit -/

def hasRoom (rows : List Resource) (workspaceId storeId : String) : Bool :=
  (listResources rows (memoryQuery workspaceId storeId)
    (MAX_MEMORIES_PER_STORE + 1)).length < MAX_MEMORIES_PER_STORE

/-- No memory has the path, or only the given one. -/
def pathFree (rows : List Resource) (workspaceId storeId : String)
    (memoryId : Option String) (key : String) : Bool :=
  match findMemoryByPath rows workspaceId storeId key with
  | .ok found => found.all fun other => some other.id = memoryId
  | .error _ => false

def CreationChecksHold (py : Interpreter) (workspaceId storeId : String)
    (body : MemoryCreateRequest) (view : View) (current : List Resource) : Prop :=
  ∀ path ∈ (normalizeMemoryPath py (Dict.get body.modelDump "path")).toOption,
    hasRoom (view 1) workspaceId storeId = true →
    pathFree (view 2) workspaceId storeId none (pathKey path) = true →
      hasRoom current workspaceId storeId = true ∧
        pathFree current workspaceId storeId none (pathKey path) = true

def UpdateCheckHolds (py : Interpreter) (workspaceId storeId memoryId : String)
    (body : MemoryUpdateRequest) (view : View) (current : List Resource) : Prop :=
  ∀ memory ∈ (mustExist (view 0) workspaceId memoryId .memory (some storeId)).toOption,
  ∀ path ∈ (normalizeMemoryPath py (Dict.get (memoryUpdate body) "path")).toOption,
    Dict.get memory.data "path_key" ≠ .str (pathKey path) →
    pathFree (view 1) workspaceId storeId (some memoryId) (pathKey path) = true →
      pathFree current workspaceId storeId (some memoryId) (pathKey path) = true

/-- The checks of a creation or of a change of path which pass on the rows that
were read pass on the current ones too. -/
def ChecksStillHold (py : Interpreter) (workspaceId : String) (view : View)
    (current : List Resource) : MemoryRequest → Prop
  | .create storeId body _ => CreationChecksHold py workspaceId storeId body view current
  | .update storeId memoryId body _ =>
      UpdateCheckHolds py workspaceId storeId memoryId body view current
  | .createStore _ | .updateStore .. | .archiveStore _ | .deleteStore _ | .delete ..
  | .redact .. => True

instance (py : Interpreter) (workspaceId storeId : String) (body : MemoryCreateRequest)
    (view : View) (current : List Resource) :
    Decidable (CreationChecksHold py workspaceId storeId body view current) :=
  inferInstanceAs (Decidable (∀ path ∈ Except.toOption _, _))

instance (py : Interpreter) (workspaceId storeId memoryId : String)
    (body : MemoryUpdateRequest) (view : View) (current : List Resource) :
    Decidable (UpdateCheckHolds py workspaceId storeId memoryId body view current) :=
  inferInstanceAs (Decidable (∀ memory ∈ Except.toOption _, _))

instance (py : Interpreter) (workspaceId : String) (view : View)
    (current : List Resource) :
    (request : MemoryRequest) →
      Decidable (ChecksStillHold py workspaceId view current request)
  | .create storeId body _ =>
      inferInstanceAs
        (Decidable (CreationChecksHold py workspaceId storeId body view current))
  | .update storeId memoryId body _ =>
      inferInstanceAs
        (Decidable (UpdateCheckHolds py workspaceId storeId memoryId body view current))
  | .createStore _ | .updateStore .. | .archiveStore _ | .deleteStore _ | .delete ..
  | .redact .. => isTrue trivial

/-- The checks of a request which commits. -/
def StepChecksStillHold (py : Interpreter) :
    MemoryWorld → MemoryCall × List ℕ → Prop :=
  OnCommit (MemoryCall.body py) fun call view current =>
    ChecksStillHold py call.workspaceId view current call.request

instance (py : Interpreter) (world : MemoryWorld) (label : MemoryCall × List ℕ) :
    Decidable (StepChecksStillHold py world label) :=
  inferInstanceAs (Decidable (OnCommit ..))

/-! ## Live memories and the queries -/

/-- Names and path keys tell the same memories apart. -/
theorem MemoryRows.keys_nodup_iff
    {rows : List Resource} (hrows : MemoryRows rows) (storeId : String) :
    ((liveMemories rows storeId).map fun memory => Dict.get memory.data "path_key").Nodup ↔
      ((liveMemories rows storeId).map ManagedResource.name).Nodup := by
  have hsame : ((liveMemories rows storeId).map fun memory =>
      Dict.get memory.data "path_key") =
        ((liveMemories rows storeId).map ManagedResource.name).map optionalText := by
    rw [List.map_map]
    apply List.map_congr_left
    intro memory hmemory
    obtain ⟨hmem, hlive⟩ := List.mem_filter.mp hmemory
    simp only [isLiveMemoryOf, decide_eq_true_eq] at hlive
    obtain ⟨key, hkey, hname⟩ := (hrows.memories memory hmem hlive.1).key
    simp [hkey, hname, optionalText]
  have hinjective : Function.Injective optionalText := by
    intro first second hsame
    cases first <;> cases second <;> simp_all [optionalText]
  rw [hsame, List.nodup_map_iff hinjective]

/-- The memories of a store are in the workspace of the store. -/
theorem MemoryRows.liveMemories_eq
    {rows : List Resource} (hrows : MemoryRows rows) {workspaceId storeId : String}
    {store : Resource} (hstore : store ∈ rows) (hid : store.id = storeId)
    (hworkspace : store.workspaceId = workspaceId) :
    liveMemories rows storeId =
      rows.filter (memoryQuery workspaceId storeId).selects := by
  apply List.filter_congr
  intro row hrow
  simp only [isLiveMemoryOf, ResourceQuery.selects, memoryQuery, decide_eq_decide]
  constructor
  · rintro ⟨htype, hparent, hlive⟩
    obtain ⟨found, hfound, -, hfoundId, hfoundWorkspace⟩ :=
      (hrows.memories row hrow htype).store
    have hsameId : found.id = store.id := by
      rw [hid]
      exact Option.some.inj (hfoundId.symm.trans hparent)
    obtain rfl := List.inj_on_of_nodup_map hrows.ids hfound hstore hsameId
    exact ⟨htype, hfoundWorkspace.trans hworkspace, Or.inr hlive, Or.inr hparent,
      Or.inl trivial⟩
  · rintro ⟨htype, -, hlive, hparent, -⟩
    exact ⟨htype, by simpa using hparent, by simpa using hlive⟩

theorem scalarOneOrNone_of_subsingleton
    {rows : List Resource} (hnodup : rows.Nodup)
    (hsame : ∀ first ∈ rows, ∀ second ∈ rows, first = second) :
    ∃ found, scalarOneOrNone rows = .ok found := by
  match rows with
  | [] => exact ⟨none, rfl⟩
  | [resource] => exact ⟨some resource, rfl⟩
  | first :: second :: rest =>
      have hequal : first = second := hsame first (by simp) second (by simp)
      rw [hequal] at hnodup
      simp at hnodup

theorem findMemoryByPath_ok
    {rows : List Resource} (hrows : MemoryRows rows) {storeId : String}
    (hnames : ((liveMemories rows storeId).map ManagedResource.name).Nodup)
    (workspaceId key : String) :
    ∃ found, findMemoryByPath rows workspaceId storeId key = .ok found := by
  apply scalarOneOrNone_of_subsingleton
  · exact (List.Nodup.of_map _ hrows.ids).filter _
  · intro first hfirst second hsecond
    have hmem : ∀ row ∈ rows.filter (fun row =>
        (memoryQuery workspaceId storeId).selects row ∧ row.name = some key),
        row ∈ liveMemories rows storeId ∧ row.name = some key := by
      intro row hrow
      obtain ⟨hrow, hselected⟩ := List.mem_filter.mp hrow
      simp only [ResourceQuery.selects, memoryQuery, decide_eq_true_eq] at hselected
      obtain ⟨⟨htype, -, hlive, hparent, -⟩, hname⟩ := hselected
      refine ⟨List.mem_filter.mpr ⟨hrow, ?_⟩, hname⟩
      simp only [isLiveMemoryOf, decide_eq_true_eq]
      exact ⟨htype, by simpa using hparent, by simpa using hlive⟩
    obtain ⟨hfirstMem, hfirstName⟩ := hmem first hfirst
    obtain ⟨hsecondMem, hsecondName⟩ := hmem second hsecond
    exact List.inj_on_of_nodup_map hnames hfirstMem hsecondMem
      (hfirstName.trans hsecondName.symm)

/-! ## Commits -/

structure StoresInLimits (rows : List Resource) : Prop where
  names : ∀ storeId, ((liveMemories rows storeId).map ManagedResource.name).Nodup
  capacity : ∀ storeId, (liveMemories rows storeId).length ≤ MAX_MEMORIES_PER_STORE

theorem StoresInLimits.of_sublist
    {rows next : List Resource} (hlimits : StoresInLimits rows)
    (hsublist : ∀ storeId,
      (liveMemories next storeId).Sublist (liveMemories rows storeId)) :
    StoresInLimits next where
  names := fun storeId => (hlimits.names storeId).sublist ((hsublist storeId).map _)
  capacity := fun storeId => (hsublist storeId).length_le.trans (hlimits.capacity storeId)

theorem liveMemories_append_other
    {rows : List Resource} {row : Resource} {storeId : String}
    (hnot : isLiveMemoryOf storeId row = false) :
    liveMemories (rows ++ [row]) storeId = liveMemories rows storeId := by
  simp [liveMemories, hnot]

theorem not_isLiveMemoryOf
    {row : Resource} {storeId : String} (htype : row.resourceType ≠ .memory) :
    isLiveMemoryOf storeId row = false := by
  simp [isLiveMemoryOf, htype]

theorem hasRoom_iff
    {rows : List Resource} {workspaceId storeId : String} :
    hasRoom rows workspaceId storeId = true ↔
      (rows.filter (memoryQuery workspaceId storeId).selects).length <
        MAX_MEMORIES_PER_STORE := by
  simp only [hasRoom, listResources, NewestPage.page, decide_eq_true_eq, List.length_take,
    List.length_insertionSort]
  omega

theorem ensureMemoryStoreCapacity_eq_ok
    {rows : List Resource} {workspaceId storeId : String} :
    ensureMemoryStoreCapacity rows workspaceId storeId = .ok () ↔
      hasRoom rows workspaceId storeId = true := by
  unfold ensureMemoryStoreCapacity hasRoom
  simp only [decide_eq_true_eq]
  split
  next hfull => exact iff_of_false (by simp) (Nat.not_lt.mpr hfull)
  next hroom => exact iff_of_true rfl (Nat.not_le.mp hroom)

theorem pathFree_iff
    {rows : List Resource} {workspaceId storeId key : String} {memoryId : Option String} :
    pathFree rows workspaceId storeId memoryId key = true ↔
      ∃ found, findMemoryByPath rows workspaceId storeId key = .ok found ∧
        ∀ other, found = some other → some other.id = memoryId := by
  unfold pathFree
  split
  next found hfound =>
    rw [hfound]
    cases found <;> simp
  next error hfound => simp [hfound]

/-- A free path is no name of another memory in the query. -/
theorem scalarOneOrNone_mem
    {rows : List Resource} {found : Option Resource}
    (hfound : scalarOneOrNone rows = .ok found) {row : Resource} (hrow : row ∈ rows) :
    found = some row := by
  match rows with
  | [] => cases hrow
  | [resource] =>
      obtain rfl : row = resource := by simpa using hrow
      exact (Except.ok.inj hfound).symm
  | _ :: _ :: _ => cases hfound

theorem id_of_pathFree
    {rows : List Resource} {workspaceId storeId key : String} {memoryId : Option String}
    (hfree : pathFree rows workspaceId storeId memoryId key = true) {row : Resource}
    (hrow : row ∈ rows.filter (memoryQuery workspaceId storeId).selects)
    (hname : row.name = some key) : some row.id = memoryId := by
  obtain ⟨found, hfound, hid⟩ := pathFree_iff.mp hfree
  apply hid
  apply scalarOneOrNone_mem hfound
  obtain ⟨hmem, hselected⟩ := List.mem_filter.mp hrow
  exact List.mem_filter.mpr ⟨hmem, by simp [hselected, hname]⟩

theorem createChecks_of_committed
    {py : Interpreter} {call : MemoryCall} {view : View} {current : List Resource}
    {memory version : Resource}
    (hhold : ChecksStillHold py call.workspaceId view current call.request)
    (hcreation : Creation py call view current memory version) :
    ∃ storeId key, memory.parentId = some storeId ∧ memory.name = some key ∧
      hasRoom current call.workspaceId storeId = true ∧
      pathFree current call.workspaceId storeId none key = true := by
  obtain ⟨storeId, body, viewName, key, hrequest, hdata, hroom, hfound, hparent, hname,
    hkey⟩ := hcreation.request
  rw [hrequest] at hhold
  obtain ⟨path, hpath, hpathKey⟩ := memoryPayload_path hdata
  rw [hpathKey, Json.str.injEq] at hkey
  subst hkey
  obtain ⟨hroomHolds, hpathHolds⟩ := hhold path (by rw [hpath]; rfl)
    (ensureMemoryStoreCapacity_eq_ok.mp hroom) (pathFree_iff.mpr ⟨none, hfound, by simp⟩)
  exact ⟨storeId, _, hparent, hname, hroomHolds, hpathHolds⟩

theorem Creation.limits
    {py : Interpreter} {call : MemoryCall} {view : View} {current : List Resource}
    {memory version : Resource} (hrows : MemoryRows current)
    (hlimits : StoresInLimits current)
    (hhold : ChecksStillHold py call.workspaceId view current call.request)
    (hcreation : Creation py call view current memory version) :
    StoresInLimits (current ++ [memory] ++ [version]) := by
  obtain ⟨storeId, key, hparent, hname, hroom, hfree⟩ :=
    createChecks_of_committed hhold hcreation
  obtain ⟨store, hstore, -, hstoreId, hworkspace⟩ := hcreation.store
  have hid : store.id = storeId := Option.some.inj (hstoreId.symm.trans hparent)
  have hquery := hrows.liveMemories_eq hstore hid
    (hworkspace.symm.trans hcreation.workspaceId)
  have hversion : ∀ other, liveMemories (current ++ [memory] ++ [version]) other =
      liveMemories (current ++ [memory]) other := fun other =>
    liveMemories_append_other
      (not_isLiveMemoryOf (by simp [hcreation.inserted.resourceType]))
  have hmemory : isLiveMemoryOf storeId memory = true := by
    simp [isLiveMemoryOf, hcreation.resourceType, hparent, hcreation.live]
  have hown : liveMemories (current ++ [memory]) storeId =
      liveMemories current storeId ++ [memory] := by
    simp [liveMemories, hmemory]
  have hothers : ∀ other, other ≠ storeId → liveMemories (current ++ [memory]) other =
      liveMemories current other := by
    intro other hne
    apply liveMemories_append_other
    simp [isLiveMemoryOf, hparent, hne.symm]
  constructor
  · intro other
    rw [hversion]
    by_cases hsame : other = storeId
    · subst hsame
      rw [hown, List.map_append, List.nodup_append]
      refine ⟨hlimits.names other, List.nodup_singleton _, ?_⟩
      intro first hfirst second hsecond
      obtain ⟨row, hrow, rfl⟩ := List.mem_map.mp hfirst
      obtain rfl : second = memory.name := by simpa using hsecond
      intro hnames
      rw [hquery] at hrow
      have htaken := id_of_pathFree hfree hrow (hnames.trans hname)
      cases htaken
    · rw [hothers other hsame]
      exact hlimits.names other
  · intro other
    rw [hversion]
    by_cases hsame : other = storeId
    · subst hsame
      rw [hasRoom_iff, ← hquery] at hroom
      rw [hown, List.length_append, List.length_singleton]
      exact hroom
    · rw [hothers other hsame]
      exact hlimits.capacity other

theorem checkMemoryPath_free
    {rows : List Resource} {workspaceId storeId memoryId key : String}
    {existing merged : Dict} (hkey : Dict.get merged "path_key" = .str key)
    (hchanged : Dict.get existing "path_key" ≠ .str key)
    (hchecked : checkMemoryPath rows workspaceId storeId memoryId existing merged =
      .ok ()) :
    pathFree rows workspaceId storeId (some memoryId) key = true := by
  have hnot :
      Json.equal (Dict.get merged "path_key") (Dict.get existing "path_key") = false := by
    rw [hkey]
    simpa [Json.equal] using hchanged
  unfold checkMemoryPath at hchecked
  rw [hnot] at hchecked
  simp only [Bool.false_eq_true, if_false, bind_eq_ok, memoryPathKey_eq_ok, raiseIf_eq_ok]
    at hchecked
  obtain ⟨given, hgiven, found, hfound, hfree⟩ := hchecked
  obtain rfl : key = given := Json.str.inj (hkey.symm.trans hgiven)
  refine pathFree_iff.mpr ⟨found, hfound, ?_⟩
  rintro other rfl
  simpa using hfree

/-- The name of the updated memory is free among the live memories of its store. -/
theorem Update.name_free
    {py : Interpreter} {call : MemoryCall} {view : View} {current : List Resource}
    {before after version : Resource} (hrows : MemoryRows current)
    (hlimits : StoresInLimits current)
    (hhold : ChecksStillHold py call.workspaceId view current call.request)
    (hupdate : Update py call view current before after version) {storeId : String}
    (hparent : before.parentId = some storeId) :
    ∀ row ∈ liveMemories current storeId, row.name = after.name → row.id = after.id := by
  obtain ⟨givenStore, memoryId, body, viewName, key, hrequest, hexists, -, -, hdata, -,
    hchecked, hname, hkey⟩ := hupdate.request
  obtain ⟨-, hid, -, hworkspace, hlive, hgiven⟩ := mustExist_found hexists
  obtain rfl : givenStore = storeId := by
    rcases hgiven with hnone | hgiven
    · cases hnone
    · exact Option.some.inj (hgiven.symm.trans hparent)
  have hhistory := hrows.memories before hupdate.advance.mem hupdate.advance.resourceType
  obtain ⟨oldKey, holdKey, holdName⟩ := hhistory.key
  have hbefore : before ∈ liveMemories current givenStore :=
    List.mem_filter.mpr ⟨hupdate.advance.mem, by
      simp [isLiveMemoryOf, hupdate.advance.resourceType, hparent, hlive]⟩
  have hafterId := hupdate.advance.follows.id
  intro row hrow hrowName
  by_cases hsame : oldKey = key
  · have hnames : row.name = before.name := by rw [hrowName, hname, holdName, hsame]
    rw [hafterId, List.inj_on_of_nodup_map (hlimits.names givenStore) hrow hbefore hnames]
  · have hchanged : Dict.get before.data "path_key" ≠ .str key := by
      rw [holdKey]
      simpa using hsame
    have hmerged := mergeMemoryData_merged hdata
    have hpresent : Dict.contains (memoryUpdate body) "path" = true := by
      by_contra habsent
      rw [Bool.not_eq_true] at habsent
      exact hchanged ((hmerged.samePath habsent).symm.trans hkey)
    obtain ⟨path, hpath, hpathKey⟩ := hmerged.newPath hpresent
    rw [hpathKey, Json.str.injEq] at hkey
    subst hkey
    have hfree := checkMemoryPath_free hpathKey hchanged hchecked
    rw [hrequest] at hhold
    rw [hid] at hfree
    have hcurrent :=
      hhold before (by rw [hexists]; rfl) path (by rw [hpath]; rfl) hchanged hfree
    obtain ⟨store, hstore, -, hstoreId, hstoreWorkspace⟩ := hhistory.store
    have hquery := hrows.liveMemories_eq hstore
      (Option.some.inj (hstoreId.symm.trans hparent))
      (hstoreWorkspace.symm.trans hworkspace)
    rw [hquery] at hrow
    have hrowId := id_of_pathFree hcurrent hrow (hrowName.trans hname)
    rw [hafterId, hid]
    exact Option.some.inj hrowId

theorem names_replaceRow
    {rows : List Resource} {written : Resource}
    (hids : (rows.map ManagedResource.id).Nodup)
    (hnames : (rows.map ManagedResource.name).Nodup)
    (hfree : ∀ row ∈ rows, row.name = written.name → row.id = written.id) :
    ((replaceRow rows written).map ManagedResource.name).Nodup := by
  unfold replaceRow
  rw [List.map_map]
  refine List.Nodup.map_on ?_ (List.Nodup.of_map _ hids)
  intro first hfirst second hsecond hsame
  apply List.inj_on_of_nodup_map hids hfirst hsecond
  by_cases hfirstId : first.id = written.id <;>
    by_cases hsecondId : second.id = written.id
  · exact hfirstId.trans hsecondId.symm
  · simp only [Function.comp_apply, hfirstId, hsecondId, if_true, if_false] at hsame
    exact absurd (hfree second hsecond hsame.symm) hsecondId
  · simp only [Function.comp_apply, hfirstId, hsecondId, if_true, if_false] at hsame
    exact absurd (hfree first hfirst hsame) hfirstId
  · simp only [Function.comp_apply, hfirstId, hsecondId, if_false] at hsame
    rw [List.inj_on_of_nodup_map hnames hfirst hsecond hsame]

theorem Update.limits
    {py : Interpreter} {call : MemoryCall} {view : View} {current : List Resource}
    {before after version : Resource} (hrows : MemoryRows current)
    (hlimits : StoresInLimits current)
    (hhold : ChecksStillHold py call.workspaceId view current call.request)
    (hupdate : Update py call view current before after version) :
    StoresInLimits (replaceRow current after ++ [version]) := by
  have hadvance := hupdate.advance
  have hlive : ∀ storeId, liveMemories (replaceRow current after ++ [version]) storeId =
      replaceRow (liveMemories current storeId) after := by
    intro storeId
    rw [liveMemories_append_other
      (not_isLiveMemoryOf (by simp [hadvance.inserted.resourceType]))]
    apply filter_replaceRow hrows.ids hadvance.mem hadvance.follows.id
    simp [isLiveMemoryOf, hadvance.follows.resourceType, hadvance.follows.parentId,
      hupdate.live, hadvance.live]
  constructor
  · intro storeId
    rw [hlive]
    have hids : ((liveMemories current storeId).map ManagedResource.id).Nodup :=
      hrows.ids.sublist (List.filter_sublist.map _)
    by_cases hparent : before.parentId = some storeId
    · exact names_replaceRow hids (hlimits.names storeId)
        (hupdate.name_free hrows hlimits hhold hparent)
    · rw [replaceRow_of_not_mem]
      · exact hlimits.names storeId
      · intro row hrow hid
        obtain ⟨hmem, hselected⟩ := List.mem_filter.mp hrow
        obtain rfl := List.inj_on_of_nodup_map hrows.ids hmem hadvance.mem
          (hid.trans hadvance.follows.id)
        simp [isLiveMemoryOf, hparent] at hselected
  · intro storeId
    rw [hlive]
    simpa [replaceRow] using hlimits.capacity storeId

theorem MemoryCommit.limits
    {py : Interpreter} {call : MemoryCall} {view : View} {current next : List Resource}
    (hrows : MemoryRows current) (hlimits : StoresInLimits current)
    (hhold : ChecksStillHold py call.workspaceId view current call.request)
    (hcommitted : MemoryCommit py call view current next) : StoresInLimits next := by
  cases hcommitted with
  | storeAdded store hrequest hfresh htype =>
      apply hlimits.of_sublist
      intro storeId
      rw [liveMemories_append_other (not_isLiveMemoryOf (by simp [htype]))]
  | storeWritten store written hrequest hstore htype hfollows =>
      exact hlimits.of_sublist fun storeId =>
        filter_replaceRow_sublist
          (not_isLiveMemoryOf (by simp [hfollows.resourceType, htype]))
  | created memory version hcreation => exact hcreation.limits hrows hlimits hhold
  | updated before after version hupdate => exact hupdate.limits hrows hlimits hhold
  | deleted before after version hdeletion =>
      apply hlimits.of_sublist
      intro storeId
      rw [liveMemories_append_other
        (not_isLiveMemoryOf (by simp [hdeletion.advance.inserted.resourceType]))]
      exact filter_replaceRow_sublist (by simp [isLiveMemoryOf, hdeletion.deleted])
  | redacted before after hrequest hredaction =>
      exact hlimits.of_sublist fun storeId =>
        filter_replaceRow_sublist (not_isLiveMemoryOf (by
          simp [hredaction.row.follows.resourceType, hredaction.row.resourceType]))

theorem store_limits_kept
    {py : Interpreter} {calls : List (MemoryCall × List ℕ)} {world : MemoryWorld}
    (hhold : AllSteps (memoryStep py) (StepChecksStillHold py) MemoryWorld.start calls)
    (hrun : run (memoryStep py) MemoryWorld.start calls = some world) :
    ∀ rows ∈ world.history, ∀ storeId, StoreInLimits rows storeId := by
  have hstart : StoresInLimits [] := ⟨fun _ => List.nodup_nil, fun _ => Nat.zero_le _⟩
  have hordered := memory_run_property hstart
    (fun world call ages next hallowed hseen _ hlimits hbody hcommitted =>
      hcommitted.limits hseen.rows hlimits (hallowed (by simp [hbody]))) hhold hrun
  intro rows hrows storeId
  obtain ⟨hmemoryRows, hlimits⟩ := hordered.states rows hrows
  exact
    { keys := (hmemoryRows.keys_nodup_iff storeId).mpr (hlimits.names storeId)
      capacity := hlimits.capacity storeId
      lookup := findMemoryByPath_ok hmemoryRows (hlimits.names storeId) }

/-- The second creation reads what the first one has committed. -/
def sampleCreations : List (MemoryCall × List ℕ) :=
  [sampleStore, sampleMemory "b" "draft" [], sampleMemory "c" "other" []]

def sampleCreationsWorld : MemoryWorld :=
  (run (memoryStep sampleInterpreter) MemoryWorld.start sampleCreations).get
    (by decide)

theorem sample_store_limits_kept :
    StoreInLimits sampleCreationsWorld.current "memstore_a0" :=
  store_limits_kept (by decide : AllSteps (memoryStep sampleInterpreter)
    (StepChecksStillHold sampleInterpreter) MemoryWorld.start sampleCreations)
    (Option.some_get _).symm _ List.mem_cons_self "memstore_a0"

/-- The second creation reads the rows from before the first one's commit. -/
def sampleCrossing : List (MemoryCall × List ℕ) :=
  [sampleStore, sampleMemory "b" "draft" [], sampleMemory "c" "other" [1, 1, 1]]

def sampleCrossingWorld : MemoryWorld :=
  (run (memoryStep sampleInterpreter) MemoryWorld.start sampleCrossing).get
    (by decide)

theorem sample_path_taken_twice :
    run (memoryStep sampleInterpreter) MemoryWorld.start sampleCrossing =
        some sampleCrossingWorld ∧
      ¬StoreInLimits sampleCrossingWorld.current "memstore_a0" := by
  have htwice : ¬((liveMemories sampleCrossingWorld.current "memstore_a0").map
      fun memory => Dict.get memory.data "path_key").Nodup := by decide +kernel
  exact ⟨(Option.some_get _).symm, fun hlimits => htwice hlimits.keys⟩

end ManagedAgents
