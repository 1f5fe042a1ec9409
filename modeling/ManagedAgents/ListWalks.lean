import ManagedAgents.MemoryPointers
import ManagedAgents.EventStream
import ManagedAgents.PageCursors

/-!
# Walks over whole lists

The endpoints for the memories and the memory versions of a store and for the
events of a session cut their pages from the answer of one query, which has a
limit of its own.  A walk returns every row exactly once as long as the limits
of the queries are not reached.
-/

namespace ManagedAgents

open Fallible NewestPage

/-! ## Memories -/

def sortMemories (py : Interpreter) (resources : List Resource) (order orderBy : String) :
    Except HTTPException (List Resource) := do
  let order ← normalizeSortOrder (some order) "asc"
  raiseIf (orderBy ∉ ["path", "created_at"])
    ⟨422, "order_by must be path or created_at"⟩
  if orderBy = "created_at" then sortByCreatedAt resources (some order)
  else
    return sorted
      (fun resource : Resource =>
        py.str ((Dict.get resource.data "path_key").or (.str "")))
      (order = "desc") resources

def memoryResourcePathKey (py : Interpreter) (resource : Resource) : String :=
  let value :=
    ((Dict.get resource.data "path_key").or (optionalText resource.name)).or (.str "")
  stripSlashes (py.str value)

/-- The segments below the prefix; a memory elsewhere is skipped. -/
def relativeParts (prefixKey key : String) : Option (List String) :=
  if prefixKey = "" then some (splitSlashes key)
  else if key = prefixKey then some []
  else if startswith key (prefixKey ++ "/") then
    some ((splitSlashes key).drop (splitSlashes prefixKey).length)
  else none

/-- The columns which only responses show, for every row. -/
abbrev RowColumns := Resource → ShownColumns

def addMemoryListItem (py : Interpreter) (columns : RowColumns) (viewName : Option String)
    (depth : ℕ) (prefixKey : String) (itemsByPath : Dict) (resource : Resource) :
    Except HTTPException Dict :=
  let key := memoryResourcePathKey py resource
  if key = "" then .ok itemsByPath
  else
    match relativeParts prefixKey key with
    | none => .ok itemsByPath
    | some relative =>
        if relative.length ≤ depth then do
          let memory ← memoryResponse py (columns resource) viewName resource
          match Dict.get memory "path" with
          | .str path => return Dict.set itemsByPath path (.dict memory)
          | _ => throw internalServerError
        else
          let baseParts := if prefixKey = "" then [] else splitSlashes prefixKey
          let rollupParts := (splitSlashes key).take (baseParts.length + depth)
          let prefixPath :=
            if rollupParts = [] then "/" else "/" ++ joinSlashes rollupParts ++ "/"
          .ok <| Dict.setdefault itemsByPath prefixPath
            (.dict [("type", .str "memory_prefix"), ("path", .str prefixPath)])

def memoryListItemsWithDepth (py : Interpreter) (columns : RowColumns)
    (resources : List Resource) (viewName : Option String) (depth : ℤ)
    (pathPrefix : Option String) (order : String) : Except HTTPException (List Dict) := do
  raiseIf (depth < 0) ⟨422, "Memory list depth must be non-negative"⟩
  let prefixKey ←
    match pathPrefix with
    | none => .ok ""
    | some under => (normalizeMemoryPathPrefix py under).map pathKey
  let itemsByPath ←
    resources.foldlM (addMemoryListItem py columns viewName depth.toNat prefixKey) []
  let paths := sorted id (order = "desc") (itemsByPath.map Prod.fst)
  paths.mapM fun path => toDict (Dict.get itemsByPath path)

/-- The query parameters of `list_memories`. -/
structure MemoryListQuery where
  limit : ℤ := 50
  page : Option String := none
  path : Option String := none
  pathPrefix : Option String := none
  depth : Option ℤ := none
  view : Option String := none
  order : String := "asc"
  orderBy : String := "path"

def listMemoriesPage (py : Interpreter) (columns : RowColumns)
    (workspaceId storeId : String)
    (query : MemoryListQuery) (view : View) (now : Time) :
    Except HTTPException (ListResponse Dict) := do
  let resources ←
    listMemories py workspaceId storeId query.path query.pathPrefix query.view view
  let resources ← sortMemories py resources query.order query.orderBy
  match query.depth, query.path with
  | some depth, none => do
      let items ← memoryListItemsWithDepth py columns resources query.view depth
        query.pathPrefix query.order
      paginate py.toPython now items (some query.limit) query.page
  | _, _ => do
      let items ← resources.mapM fun memory =>
        memoryResponse py (columns memory) query.view memory
      paginate py.toPython now items (some query.limit) query.page

/-! ## Memory versions -/

def listMemoryVersionsPage (py : Interpreter) (columns : RowColumns)
    (workspaceId storeId : String) (filter : VersionFilter) (viewName : Option String)
    (limit : ℤ) (page : Option String) (view : View) (now : Time) :
    Except HTTPException (ListResponse Dict) := do
  let versions ← listMemoryVersions py workspaceId storeId filter viewName view
  let versions ← sortByCreatedAt versions (some "desc")
  let items ← versions.mapM fun version =>
    memoryVersionResponse py (columns version) viewName version
  paginate py.toPython now items (some limit) page

/-! ## Events -/

structure CreatedAtFilter where
  gt : Option Time := none
  gte : Option Time := none
  lt : Option Time := none
  lte : Option Time := none

/-- `filter_created_at` for a row with a creation time. -/
def CreatedAtFilter.keeps (filter : CreatedAtFilter) (createdAt : Time) : Bool :=
  (filter.gt.all fun bound => bound < createdAt) &&
  (filter.gte.all fun bound => bound ≤ createdAt) &&
  (filter.lt.all fun bound => createdAt < bound) &&
  (filter.lte.all fun bound => createdAt ≤ bound)

/-- The query parameters of `list_session_events`. -/
structure EventListQuery where
  afterSeq : ℤ := 0
  limit : ℤ := 100
  page : Option String := none
  order : String := "asc"
  createdAt : CreatedAtFilter := {}
  requestedTypes : List String := []

def listSessionEvents (py : Python) (timestamp : String → String) (db : Db)
    (query : EventListQuery) (now : Time) : Except HTTPException (ListResponse Dict) := do
  raiseIf (db.session.deletedAt ≠ none) sessionNotFound
  let events := listEventsFrom db.events query.afterSeq 1000
  let events := events.filter fun event => query.createdAt.keeps event.createdAt
  let events :=
    if query.requestedTypes = [] then events
    else events.filter fun event => event.type ∈ query.requestedTypes
  let order ← normalizeSortOrder (some query.order) "asc"
  let events := if order = "desc" then events.reverse else events
  let items := events.map (eventToResponse py timestamp db.session.id)
  paginate py now items (some query.limit) query.page

/-! ## Walks -/

/-- A walk returns the rows with these identifiers, each of them once. -/
def WalkLists (endpoint : Time → Option String → Except HTTPException (ListResponse Dict))
    (clock : ℕ → Time) (ids : List String) : Prop :=
  ∃ items, WalkReturns endpoint clock items ∧
    (items.map fun item => Dict.get item "id").Perm (ids.map Json.str)

/-- Every page is cut from the same items. -/
theorem walkLists_iff
    {endpoint : Time → Option String → Except HTTPException (ListResponse Dict)}
    {py : Python}
    {found : Except HTTPException (List Dict)} {limit : ℤ} {clock : ℕ → Time}
    {ids : List String}
    (hendpoint : ∀ now page, endpoint now page =
      found >>= fun items => paginate py now items (some limit) page) :
    WalkLists endpoint clock ids ↔
      (∃ items, found = .ok items ∧
        (items.map fun item => Dict.get item "id").Perm (ids.map Json.str)) ∧
      WalkedInTime clock (some limit) ids.length := by
  have hsame : endpoint = fun now page =>
      found >>= fun items => paginate py now items (some limit) page := by
    funext now page
    exact hendpoint now page
  cases hfound : found with
  | error error =>
      have hnothing : ∀ items, ¬ WalkReturns endpoint clock items := by
        rintro items ⟨patience, hfollow⟩
        cases patience with
        | zero => cases hfollow
        | succ patience =>
            rw [hsame, hfound] at hfollow
            cases hfollow
      constructor
      · rintro ⟨items, hwalk, -⟩
        exact absurd hwalk (hnothing items)
      · rintro ⟨⟨items, hitems, -⟩, -⟩
        cases hitems
  | ok items =>
      have hwalk : ∀ collected, WalkReturns endpoint clock collected ↔
          collected = items ∧ WalkedInTime clock (some limit) items.length := by
        intro collected
        rw [hsame, hfound]
        exact walkReturns_paginate_iff
      have hlength : (items.map fun item => Dict.get item "id").Perm (ids.map Json.str) →
          items.length = ids.length := by
        intro hperm
        simpa using hperm.length_eq
      constructor
      · rintro ⟨collected, hcollected, hperm⟩
        obtain ⟨rfl, htime⟩ := (hwalk collected).mp hcollected
        exact ⟨⟨collected, rfl, hperm⟩, hlength hperm ▸ htime⟩
      · rintro ⟨⟨same, hsame, hperm⟩, htime⟩
        cases hsame
        exact ⟨items, (hwalk items).mpr ⟨rfl, (hlength hperm).symm ▸ htime⟩, hperm⟩

/-! ### Memories -/

section

variable {py : Interpreter} {columns : RowColumns} {viewName : Option String}

theorem get_memoryDigests_other
    (response : Dict) {key : String}
    (hkey : key ∉ ["content_sha256", "content_size_bytes"]) :
    Dict.get (memoryDigests py response) key = Dict.get response key := by
  simp only [List.mem_cons, List.not_mem_nil, or_false, not_or, ← ne_eq] at hkey
  obtain ⟨hsha, hsize⟩ := hkey
  unfold memoryDigests
  dsimp only
  rw [Dict.get_setdefault_other _ hsize.symm, Dict.get_setdefault_other _ hsha.symm]
  by_cases hshown : (if Dict.get response "content" = .null ∧
      (!(Dict.get response "redacted").truthy) = true then Json.str ""
      else Dict.get response "content") = .null
  · rw [if_pos hshown]
  · rw [if_neg hshown]
    simp only [Dict.update, contentMetadata, List.foldl_cons, List.foldl_nil]
    rw [Dict.get_set_other _ hsize.symm, Dict.get_set_other _ hsha.symm]

theorem memoryResponse_id
    {resource : Resource} {response : Dict}
    (hresponse : memoryResponse py (columns resource) viewName resource = .ok response) :
    Dict.get response "id" = .str resource.id := by
  unfold memoryResponse at hresponse
  simp only [bind_eq_ok, pure_eq_ok] at hresponse
  obtain ⟨view, -, path, -, rfl⟩ := hresponse
  split <;>
    simp [get_memoryDigests_other, get_resourceToResponse_id]

theorem memoryVersionResponse_id
    {resource : Resource} {response : Dict}
    (hresponse : memoryVersionResponse py (columns resource) viewName resource =
      .ok response) :
    Dict.get response "id" = .str resource.id := by
  unfold memoryVersionResponse at hresponse
  simp only [bind_eq_ok, pure_eq_ok] at hresponse
  obtain ⟨view, -, snapshot, -, shown, -, rfl⟩ := hresponse
  simp [VersionContent.write, versionHeader, get_resourceToResponse_id,
    Dict.get_pop_other]

theorem normalizeSortOrder_direction
    {order : Option String} {default direction : String}
    (horder : normalizeSortOrder order default = .ok direction) :
    direction = "asc" ∨ direction = "desc" := by
  unfold normalizeSortOrder at horder
  simp only at horder
  split at horder
  next hmem =>
    cases horder
    simpa using hmem
  next => cases horder

theorem sortByCreatedAt_eq_ok
    {items : List Resource} {direction : String}
    (hdirection : direction = "asc" ∨ direction = "desc") :
    sortByCreatedAt items (some direction) =
      .ok (sorted ManagedResource.age (direction = "desc") items) := by
  have hnormal : normalizeSortOrder (some direction) "desc" = .ok direction := by
    rcases hdirection with rfl | rfl <;> decide
  unfold sortByCreatedAt
  rw [hnormal]
  rfl

/-- An accepted order sorts the rows. -/
theorem sortMemories_eq_ok
    {resources : List Resource} {order orderBy direction : String}
    (horder : normalizeSortOrder (some order) "asc" = .ok direction)
    (horderBy : orderBy ∈ ["path", "created_at"]) :
    ∃ rows, sortMemories py resources order orderBy = .ok rows ∧
      rows.Perm resources := by
  unfold sortMemories
  rw [horder]
  simp only [raiseIf, horderBy, not_true_eq_false, if_false, bind, Except.bind]
  split
  · refine ⟨_, sortByCreatedAt_eq_ok (normalizeSortOrder_direction horder), ?_⟩
    exact sorted_perm _ _ resources
  · exact ⟨_, rfl, sorted_perm _ _ resources⟩

/-- Rows that are read with a limit, sorted and rendered make up a walk over all
rows if the limit is not reached and every row is rendered. -/
theorem exists_items_iff
    {rows listed : List Resource} {render : Resource → Except HTTPException Dict}
    (hrender : ∀ row item, render row = .ok item → Dict.get item "id" = .str row.id)
    (hlisted : listed.length = rows.length → listed.Perm rows) :
    (∃ items, listed.mapM render = .ok items ∧
      (items.map fun item => Dict.get item "id").Perm
        ((rows.map ManagedResource.id).map Json.str)) ↔
      listed.length = rows.length ∧ ∀ row ∈ rows, ∃ item, render row = .ok item := by
  constructor
  · rintro ⟨items, hitems, hperm⟩
    have hids := map_of_mapM hitems fun row _ => hrender row
    have hlength : listed.length = rows.length := by
      rw [hids] at hperm
      simpa using hperm.length_eq
    refine ⟨hlength, fun row hrow => ?_⟩
    exact exists_mapM_eq_ok_iff.mp ⟨items, hitems⟩ row
      ((hlisted hlength).mem_iff.mpr hrow)
  · rintro ⟨hlength, hrendered⟩
    have hperm := hlisted hlength
    obtain ⟨items, hitems⟩ := exists_mapM_eq_ok_iff.mpr
      fun row (hrow : row ∈ listed) => hrendered row (hperm.mem_iff.mp hrow)
    refine ⟨items, hitems, ?_⟩
    rw [map_of_mapM hitems fun row _ => hrender row, List.map_map]
    exact hperm.map _

def storeMemories (rows : List Resource) (workspaceId storeId : String) : List Resource :=
  rows.filter (memoryQuery workspaceId storeId).selects

theorem memories_walk_iff
    {rows : List Resource} {workspaceId storeId order orderBy direction : String}
    {view : Option String} {store : Resource} {limit : ℤ} {clock : ℕ → Time}
    (hstore : mustExist rows workspaceId storeId .memoryStore none = .ok store)
    (hview : normalizeMemoryView viewName = .ok view)
    (horder : normalizeSortOrder (some order) "asc" = .ok direction)
    (horderBy : orderBy ∈ ["path", "created_at"]) :
    WalkLists
        (fun now page => listMemoriesPage py columns workspaceId storeId
          { limit, page, view := viewName, order, orderBy } (fun _ => rows) now)
        clock ((storeMemories rows workspaceId storeId).map ManagedResource.id) ↔
      (storeMemories rows workspaceId storeId).length ≤ 1000 ∧
        (∀ memory ∈ storeMemories rows workspaceId storeId,
          ∃ response, memoryResponse py (columns memory) viewName memory = .ok response) ∧
        WalkedInTime clock (some limit)
          (storeMemories rows workspaceId storeId).length := by
  have hfound : listMemories py workspaceId storeId none none viewName (fun _ => rows) =
      .ok (page ManagedResource.age (storeMemories rows workspaceId storeId) 1000) := by
    unfold listMemories
    simp only [hview, hstore, bind, Except.bind]
    rfl
  obtain ⟨listed, hsorted, hperm⟩ := @sortMemories_eq_ok py
    (page ManagedResource.age (storeMemories rows workspaceId storeId) 1000) order orderBy
    direction horder horderBy
  have hlength := hperm.length_eq.trans (page_length 1000)
  rw [@walkLists_iff _ py.toPython
    (listed.mapM fun memory => memoryResponse py (columns memory) viewName memory)]
  · rw [exists_items_iff (fun _ _ => memoryResponse_id), hlength, List.length_map,
      and_assoc]
    · apply and_congr_left'
      omega
    · intro hsame
      apply hperm.trans
      apply page_perm_of_length_le
      omega
  · intro now page
    unfold listMemoriesPage
    simp only [hfound, hsorted, bind, Except.bind]

/-! ### Memory versions -/

/-- The memories that the store has or had. -/
def memoriesEver (rows : List Resource) (workspaceId storeId : String) : List Resource :=
  rows.filter
    { memoryQuery workspaceId storeId with includeDeleted := true : ResourceQuery }.selects

def memoryVersions (rows : List Resource) (workspaceId : String) (memory : Resource) :
    List Resource :=
  rows.filter (memoryVersionQuery workspaceId memory.id).selects

def storeVersions (rows : List Resource) (workspaceId storeId : String) : List Resource :=
  (memoriesEver rows workspaceId storeId).flatMap (memoryVersions rows workspaceId)

theorem filter_chooses_all (memories : List Resource) :
    memories.filter (VersionFilter.chooses {}) = memories :=
  List.filter_eq_self.mpr fun _ _ => rfl

theorem filter_keeps_all (versions : List Resource) :
    versions.filter (VersionFilter.keeps py {}) = versions :=
  List.filter_eq_self.mpr fun _ _ => rfl

theorem flatMap_zipIdx_fst
    {Item Result : Type} (found : Item → List Result) (items : List Item) (start : ℕ) :
    ((items.zipIdx start).flatMap fun item => found item.1) = items.flatMap found := by
  induction items generalizing start with
  | nil => rfl
  | cons item rest ih => simp [List.zipIdx_cons, ih]

theorem versions_walk_iff
    {table : Table ResourceStatus Dict} {workspaceId storeId : String}
    {view : Option String} {store : Resource} {limit : ℤ} {clock : ℕ → Time}
    (hstore : mustExist table.rows workspaceId storeId .memoryStore none = .ok store)
    (hview : normalizeMemoryView viewName = .ok view) :
    WalkLists
        (fun now page => listMemoryVersionsPage py columns workspaceId storeId {} viewName
          limit page (fun _ => table.rows) now)
        clock ((storeVersions table.rows workspaceId storeId).map ManagedResource.id) ↔
      (∀ memory ∈ memoriesEver table.rows workspaceId storeId,
        (memoryVersions table.rows workspaceId memory).length ≤ 1000 ∧
          (memoryVersions table.rows workspaceId memory ≠ [] →
            (newer ManagedResource.age (memoriesEver table.rows workspaceId storeId)
              memory).length < 2100)) ∧
        (∀ version ∈ storeVersions table.rows workspaceId storeId,
          ∃ response,
            memoryVersionResponse py (columns version) viewName version = .ok response) ∧
        WalkedInTime clock (some limit)
          (storeVersions table.rows workspaceId storeId).length := by
  set memories := memoriesEver table.rows workspaceId storeId with hmemories
  set listed := pages ManagedResource.age (memoryVersions table.rows workspaceId)
    (page ManagedResource.age memories 2100) 1000 with hlisted
  have hkeyed : Keyed ManagedResource.age memories := table.keyed _
  have hfound : listMemoryVersions py workspaceId storeId {} viewName
      (fun _ => table.rows) = .ok listed := by
    unfold listMemoryVersions
    simp only [hview, hstore, bind, Except.bind, Option.any_none, Bool.false_eq_true,
      raiseIf, if_false, pure, Except.pure]
    rw [filter_keeps_all, filter_chooses_all]
    exact congrArg Except.ok (flatMap_zipIdx_fst (fun memory : Resource =>
      listResources table.rows (memoryVersionQuery workspaceId memory.id) 1000) _ 0)
  have hperm := sorted_perm ManagedResource.age true listed
  rw [@walkLists_iff _ py.toPython
    ((sorted ManagedResource.age true listed).mapM fun version =>
      memoryVersionResponse py (columns version) viewName version)]
  · rw [exists_items_iff (fun _ _ => memoryVersionResponse_id), hperm.length_eq,
      List.length_map, and_assoc]
    · exact and_congr_left' (hkeyed.pages_length_eq_iff 2100 1000)
    · intro hsame
      exact hperm.trans (hkeyed.pages_perm (hperm.length_eq.symm.trans hsame))
  · intro now page
    unfold listMemoryVersionsPage
    rw [hfound]
    simp only [bind, Except.bind]
    rw [sortByCreatedAt_eq_ok (Or.inr rfl)]
    rfl

end

/-! ### Events -/

def eventsAfter (db : Db) (afterSeq : ℤ) : List SessionEvent :=
  db.events.filter fun event => afterSeq < event.seq

theorem events_walk_iff
    {py : Python} {timestamp : String → String} {db : Db} {afterSeq limit : ℤ}
    {order direction : String} {clock : ℕ → Time}
    (hsession : db.session.deletedAt = none)
    (horder : normalizeSortOrder (some order) "asc" = .ok direction) :
    WalkLists
        (fun now page => listSessionEvents py timestamp db
          { afterSeq, limit, page, order } now)
        clock ((eventsAfter db afterSeq).map SessionEvent.id) ↔
      (eventsAfter db afterSeq).length ≤ 1000 ∧
        WalkedInTime clock (some limit) (eventsAfter db afterSeq).length := by
  set listed := listEventsFrom db.events afterSeq 1000 with hlisted
  set shown := if direction = "desc" then listed.reverse else listed with hshown
  have hlength : shown.length = min 1000 (eventsAfter db afterSeq).length := by
    have hreverse : shown.length = listed.length := by
      rw [hshown]
      split
      · exact List.length_reverse
      · rfl
    rw [hreverse, hlisted, listEventsFrom, List.length_take, List.length_insertionSort]
    rfl
  have hperm : (eventsAfter db afterSeq).length ≤ 1000 →
      shown.Perm (eventsAfter db afterSeq) := by
    intro hshort
    have hall : listed.Perm (eventsAfter db afterSeq) := by
      rw [hlisted, listEventsFrom, List.take_of_length_le]
      · exact List.perm_insertionSort _ _
      · rw [List.length_insertionSort]
        exact hshort
    rw [hshown]
    split
    · exact (List.reverse_perm listed).trans hall
    · exact hall
  have hids : ((shown.map (eventToResponse py timestamp db.session.id)).map
      fun item => Dict.get item "id") = (shown.map SessionEvent.id).map Json.str := by
    rw [List.map_map, List.map_map]
    rfl
  rw [@walkLists_iff _ py (.ok (shown.map (eventToResponse py timestamp db.session.id)))]
  · rw [List.length_map]
    apply and_congr_left'
    constructor
    · rintro ⟨items, hitems, hitemsPerm⟩
      cases hitems
      have hsame := hitemsPerm.length_eq
      simp only [List.length_map, hlength] at hsame
      omega
    · intro hshort
      refine ⟨_, rfl, ?_⟩
      rw [hids]
      exact ((hperm hshort).map _).map _
  · intro now page
    unfold listSessionEvents
    have hkeeps : ∀ event ∈ listed, CreatedAtFilter.keeps {} event.createdAt = true :=
      fun _ _ => rfl
    simp only [hsession, ne_eq, not_true_eq_false, raiseIf, if_false, horder, if_true,
      bind, Except.bind, ← hlisted]
    rw [List.filter_eq_self.mpr hkeeps]

/-! ## Complete walks -/

/-- On a database that stays as it is, the walks return all live memories, all
versions and all later events exactly when no query reaches its limit, every row
is rendered and no cursor expires. -/
theorem list_walks_complete_iff
    {py : Interpreter} {timestamp : String → String} {columns : RowColumns}
    {table : Table ResourceStatus Dict} {db : Db} {workspaceId storeId : String}
    {store : Resource} {viewName view : Option String}
    {order orderBy direction : String}
    (hstore : mustExist table.rows workspaceId storeId .memoryStore none = .ok store)
    (hsession : db.session.deletedAt = none)
    (hview : normalizeMemoryView viewName = .ok view)
    (horder : normalizeSortOrder (some order) "asc" = .ok direction)
    (horderBy : orderBy ∈ ["path", "created_at"])
    (limit afterSeq : ℤ) (clock : ℕ → Time) :
    (WalkLists
        (fun now page => listMemoriesPage py columns workspaceId storeId
          { limit, page, view := viewName, order, orderBy } (fun _ => table.rows) now)
        clock ((storeMemories table.rows workspaceId storeId).map ManagedResource.id) ↔
      (storeMemories table.rows workspaceId storeId).length ≤ 1000 ∧
        (∀ memory ∈ storeMemories table.rows workspaceId storeId,
          ∃ response, memoryResponse py (columns memory) viewName memory = .ok response) ∧
        WalkedInTime clock (some limit)
          (storeMemories table.rows workspaceId storeId).length) ∧
    (WalkLists
        (fun now page => listMemoryVersionsPage py columns workspaceId storeId {} viewName
          limit page (fun _ => table.rows) now)
        clock ((storeVersions table.rows workspaceId storeId).map ManagedResource.id) ↔
      (∀ memory ∈ memoriesEver table.rows workspaceId storeId,
        (memoryVersions table.rows workspaceId memory).length ≤ 1000 ∧
          (memoryVersions table.rows workspaceId memory ≠ [] →
            (newer ManagedResource.age (memoriesEver table.rows workspaceId storeId)
              memory).length < 2100)) ∧
        (∀ version ∈ storeVersions table.rows workspaceId storeId,
          ∃ response,
            memoryVersionResponse py (columns version) viewName version = .ok response) ∧
        WalkedInTime clock (some limit)
          (storeVersions table.rows workspaceId storeId).length) ∧
    (WalkLists
        (fun now page => listSessionEvents py.toPython timestamp db
          { afterSeq, limit, page, order } now)
        clock ((eventsAfter db afterSeq).map SessionEvent.id) ↔
      (eventsAfter db afterSeq).length ≤ 1000 ∧
        WalkedInTime clock (some limit) (eventsAfter db afterSeq).length) :=
  ⟨memories_walk_iff hstore hview horder horderBy, versions_walk_iff hstore hview,
    events_walk_iff hsession horder⟩

def sampleStoreTable : Table ResourceStatus Dict where
  rows := sampleCreationWorld.current
  ids := by decide

def sampleColumns : RowColumns := fun row => { updatedAt := row.createdAt }

/-- A store with one memory and a session with two events. -/
theorem sample_list_walks_complete :
    WalkLists
        (fun now page => listMemoriesPage sampleInterpreter sampleColumns "wrkspc_default"
          "memstore_a0"
          { limit := 50, page, view := none, order := "asc", orderBy := "path" }
          (fun _ => sampleStoreTable.rows) now)
        (fun _ => 0)
        ((storeMemories sampleStoreTable.rows "wrkspc_default" "memstore_a0").map
          ManagedResource.id) ∧
      WalkLists
        (fun now page => listSessionEvents samplePython id sampleSent
          { afterSeq := 0, limit := 1, page, order := "asc" } now)
        (fun _ => 0) ((eventsAfter sampleSent 0).map SessionEvent.id) := by
  have hwalks := fun limit => @list_walks_complete_iff sampleInterpreter id sampleColumns
    sampleStoreTable sampleSent "wrkspc_default" "memstore_a0" _ none none "asc" "path" "asc"
    (rfl : _ = Except.ok _) (by decide) rfl (by decide)
    (by decide) limit 0
    (fun _ => 0)
  have htime : ∀ limit count, WalkedInTime (fun _ => 0) limit count :=
    fun _ _ _ _ => (by decide : nowEpochSeconds 0 < nowEpochSeconds 0 + 15 * 60)
  have hrendered : ∀ memory ∈
      storeMemories sampleStoreTable.rows "wrkspc_default" "memstore_a0",
      (memoryResponse sampleInterpreter (sampleColumns memory) none memory).isOk := by
    decide +kernel
  constructor
  · refine (hwalks 50).1.mpr ⟨by decide, fun memory hmemory => ?_, htime _ _⟩
    cases hresponse : memoryResponse sampleInterpreter
      (sampleColumns memory) none memory with
    | ok response => exact ⟨response, rfl⟩
    | error error =>
        have hok := hrendered memory hmemory
        rw [hresponse] at hok
        cases hok
  · exact (hwalks 1).2.2.mpr ⟨by decide, htime _ _⟩

/-! ## A store with more memories than the query reads -/

def letters (count : ℕ) : String :=
  String.ofList (List.replicate count 'a')

def crowdedStoreRow : Resource where
  id := "memstore_a0"
  workspaceId := "wrkspc_default"
  resourceType := .memoryStore
  status := .active
  data := [("name", .str "notes")]
  createdAt := 0

def crowdedMemory (index : ℕ) : Resource where
  id := "mem_" ++ letters index
  workspaceId := "wrkspc_default"
  resourceType := .memory
  parentId := some "memstore_a0"
  name := some ("a" ++ letters index)
  status := .active
  data := [("path", .str ("/a" ++ letters index)),
    ("path_key", .str ("a" ++ letters index))]
  createdAt := index

def crowdedRows : List Resource :=
  crowdedStoreRow :: (List.range 1001).map crowdedMemory

theorem crowdedMemory_id_injective :
    Function.Injective fun index => (crowdedMemory index).id := by
  intro first second hsame
  have hletters := congrArg String.length hsame
  simp only [crowdedMemory, letters, String.length_append, String.length_ofList,
    List.length_replicate] at hletters
  omega

theorem crowded_ids : (crowdedRows.map ManagedResource.id).Nodup := by
  unfold crowdedRows
  rw [List.map_cons, List.map_map, List.nodup_cons]
  refine ⟨?_, List.nodup_range.map crowdedMemory_id_injective⟩
  intro hmem
  obtain ⟨index, -, hsame⟩ := List.mem_map.mp hmem
  have hletters := congrArg String.toList hsame
  simp [crowdedMemory, crowdedStoreRow] at hletters

theorem crowded_memories :
    storeMemories crowdedRows "wrkspc_default" "memstore_a0" =
      (List.range 1001).map crowdedMemory := by
  unfold storeMemories crowdedRows
  rw [List.filter_cons_of_neg (by decide), List.filter_eq_self]
  intro row hrow
  obtain ⟨index, -, rfl⟩ := List.mem_map.mp hrow
  simp [ResourceQuery.selects, memoryQuery, crowdedMemory]

def crowdedTable : Table ResourceStatus Dict where
  rows := crowdedRows
  ids := crowded_ids

/-- A walk leaves a memory out although the store is within its limit. -/
theorem crowded_walk_incomplete :
    (storeMemories crowdedTable.rows "wrkspc_default" "memstore_a0").length ≤
        MAX_MEMORIES_PER_STORE ∧
      ¬ WalkLists
        (fun now page => listMemoriesPage sampleInterpreter sampleColumns "wrkspc_default"
          "memstore_a0"
          { limit := 50, page, view := none, order := "asc", orderBy := "path" }
          (fun _ => crowdedTable.rows) now)
        (fun _ => 0)
        ((storeMemories crowdedTable.rows "wrkspc_default" "memstore_a0").map
          ManagedResource.id) := by
  have hstore :
      mustExist crowdedTable.rows "wrkspc_default" "memstore_a0" .memoryStore none =
      .ok crowdedStoreRow := rfl
  have hlength :
      (storeMemories crowdedTable.rows "wrkspc_default" "memstore_a0").length = 1001 := by
    rw [crowdedTable, crowded_memories, List.length_map, List.length_range]
  refine ⟨by rw [hlength]; decide, fun hwalk => ?_⟩
  have hfits := ((memories_walk_iff hstore rfl (by decide : normalizeSortOrder
    (some "asc") "asc" = .ok "asc") (by decide)).mp hwalk).1
  omega

end ManagedAgents
