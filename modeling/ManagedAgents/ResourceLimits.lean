import ManagedAgents.DeploymentStatuses
import ManagedAgents.FileMetadata
import ManagedAgents.SessionResources

/-!
# Limits of session resources

A session stays within its limits, with its memory stores apart from each other,
exactly if the checks have seen all the resources they are about and the names of the
stores leave different segments.
-/

namespace ManagedAgents

open Fallible LabelledRuns NewestPage ReadCommitted

/-! ## Statement -/

/-- The data of the live resources of a session. -/
def sessionResources (rows : List Resource) (session : SessionRef) : List Dict :=
  (rows.filter (sessionResourceQuery session.workspaceId session.id).selects).map
    ManagedResource.data

def ofType (attached : List Dict) (resourceType : String) : List Dict :=
  attached.filter fun data => Dict.get data "type" = .str resourceType

/-- A directory below the one of all memory stores. -/
def StoreMount (mountPath : Json) : Prop :=
  ∃ segment : String, mountPath = .str ("/mnt/memory/" ++ segment) ∧ segment ≠ "" ∧
    '/' ∉ segment.toList ∧ segment ≠ "." ∧ segment ≠ ".."

structure WithinLimits (attached : List Dict) : Prop where
  files : (ofType attached "file").length ≤ MAX_SESSION_FILE_RESOURCES
  stores : (ofType attached "memory_store").length ≤ MAX_SESSION_MEMORY_STORE_RESOURCES
  mounted : ∀ store ∈ ofType attached "memory_store",
    StoreMount (Dict.get store "mount_path")
  apart : ∀ first ∈ ofType attached "memory_store",
    ∀ second ∈ ofType attached "memory_store",
    Dict.get first "memory_store_id" ≠ Dict.get second "memory_store_id" →
      Dict.get first "mount_path" ≠ Dict.get second "mount_path"

/-- The type which a body asks for. -/
def attachedType (py : Python) (data : Json) : String :=
  py.str ((data.get "type").or (.str ""))

/-- The resources of the type on the page of the check. -/
def countedResources (seen : List Resource) (session : SessionRef)
    (resourceType : String) : List SessionResource :=
  (attachedResources seen session).filter fun resource =>
    Dict.get resource.data "type" = .str resourceType

/-- If the session has as many resources of the type as it may have, the check is made
and reads as many. -/
def CapacitySeen (session : SessionRef) (seen actual : List Resource) (data : Json)
    (resourceType : String) (limit : ℕ) : Prop :=
  limit ≤ (ofType (sessionResources actual session) resourceType).length →
    data.get "type" = .str resourceType ∧
      limit ≤ (countedResources seen session resourceType).length

def attachedStoreRef (py : Python) (data : Json) : String :=
  py.str ((data.get "memory_store_id").or (.str ""))

/-- The last part of the mount path of a store. -/
def storeSegment (py : Python) (store : Resource) (memoryStoreId : String) : String :=
  let name := py.str (((optionalText store.name).or (Dict.get store.data "name")).or
    (.str memoryStoreId))
  textOr (textOr (safeMountSegment name) (safeMountSegment memoryStoreId)) "memory"

/-- The store is not mounted at `.` or `..` or where another store is. -/
def MountFree (py : Python) (surroundings : Surroundings) (session : SessionRef)
    (actual : List Resource) (data : Json) : Prop :=
  ∀ store, getResource surroundings.resources (attachedStoreRef py data)
      { resourceType := .memoryStore, workspaceId := session.workspaceId } = some store →
    storeSegment py store (attachedStoreRef py data) ≠ "." ∧
    storeSegment py store (attachedStoreRef py data) ≠ ".." ∧
    ∀ other ∈ ofType (sessionResources actual session) "memory_store",
      Dict.get other "memory_store_id" ≠ .str (attachedStoreRef py data) →
      Dict.get other "mount_path" ≠
        .str ("/mnt/memory/" ++ storeSegment py store (attachedStoreRef py data))

/-- A resource which is attached to a session with the actual rows, where the check
has seen other ones. -/
structure SafeAttachment (py : Python) (surroundings : Surroundings)
    (session : SessionRef) (seen actual : List Resource) (data : Json) : Prop where
  files : attachedType py data = "file" →
    CapacitySeen session seen actual data "file" MAX_SESSION_FILE_RESOURCES
  stores : attachedType py data = "memory_store" →
    CapacitySeen session seen actual data "memory_store" MAX_SESSION_MEMORY_STORE_RESOURCES
  mount : attachedType py data = "memory_store" →
    MountFree py surroundings session actual data

/-- The loop of a new session: the rows of the loop are there for the next ones. -/
def SafeAttachments (context : AttachmentContext) (surroundings : ℕ → Surroundings)
    (session : SessionRef) (view : ResourceView) (current : List Resource) :
    (position : ℕ) → (created : List Resource) → List Json → Prop
  | _, _, [] => True
  | position, created, data :: rest =>
      SafeAttachment context.py (surroundings position) session (view position ++ created)
        (current ++ created) data ∧
      ∀ row, createSessionResource context (surroundings position) session
          SESSION_RESOURCE_TYPES position (view position ++ created) data = .ok row →
        SafeAttachments context surroundings session view current (position + 1)
          (created ++ [row]) rest

def ResourceCall.Safe (settings : ResourceSettings) (call : ResourceCall)
    (view : ResourceView) (current : List Resource) : Prop :=
  match call.request with
  | .create resources =>
      SafeAttachments (settings.context call.draws) call.surroundings call.session view
        current 0 [] resources
  | .add data =>
      SafeAttachment settings.py (call.surroundings 0) call.session (view 0) current
        (.dict data)
  | .rotate .. | .remove .. => True

/-! ## Segments -/

theorem lowerChar_ne_slash {char : Char} (hchar : char ≠ '/') : lowerChar char ≠ '/' := by
  have hlower : ∀ code, 65 ≤ code → code ≤ 90 → Char.ofNat (code + 32) ≠ '/' := by
    intro code hfirst hlast
    interval_cases code <;> decide
  unfold lowerChar
  split
  next hupper => exact hlower char.toNat hupper.1 hupper.2
  next => exact hchar

theorem slash_notMem_substituteRuns (inRun : Bool) (chars : List Char) :
    '/' ∉ substituteRuns inRun chars := by
  induction chars generalizing inRun with
  | nil => simp [substituteRuns]
  | cons char rest ih =>
      unfold substituteRuns
      split
      next hmount =>
        have hchar : '/' ≠ char := by
          rintro rfl
          exact absurd hmount (by decide)
        simp [hchar, ih]
      next =>
        split
        · exact ih true
        · simp [ih]

theorem slash_notMem_safeMountSegment (value : String) :
    '/' ∉ (safeMountSegment value).toList := by
  unfold safeMountSegment
  dsimp only
  rw [String.toList_ofList, List.mem_map]
  rintro ⟨char, hchar, hlower⟩
  refine lowerChar_ne_slash ?_ hlower
  rintro rfl
  have hkept := (List.rdropWhile_prefix _ _).subset hchar
  exact slash_notMem_substituteRuns _ _ ((List.dropWhile_sublist _).subset hkept)

theorem textOr_of_both
    {property : String → Prop} {text fallback : String} (htext : property text)
    (hfallback : property fallback) : property (textOr text fallback) := by
  unfold textOr
  split
  · exact hfallback
  · exact htext

theorem slash_notMem_storeSegment
    (py : Python) (store : Resource) (memoryStoreId : String) :
    '/' ∉ (storeSegment py store memoryStoreId).toList := by
  unfold storeSegment
  exact @textOr_of_both (fun text => '/' ∉ text.toList) _ _
    (@textOr_of_both (fun text => '/' ∉ text.toList) _ _
      (slash_notMem_safeMountSegment _) (slash_notMem_safeMountSegment _)) (by decide)

theorem storeSegment_ne_empty
    (py : Python) (store : Resource) (memoryStoreId : String) :
    storeSegment py store memoryStoreId ≠ "" := by
  have hmemory : ∀ text, textOr text "memory" ≠ "" := by
    intro text
    unfold textOr
    split
    · decide
    next htext => exact htext
  exact hmemory _

/-! ## Created resources -/

/-- What is known of the row of a resource that is attached. -/
structure CreatedResource (py : Python) (surroundings : Surroundings)
    (session : SessionRef) (seen : List Resource) (data : Json) (row : Resource) :
    Prop where
  kind : Dict.get row.data "type" = .str (attachedType py data)
  own : row.workspaceId = session.workspaceId ∧ row.parentId = some session.id
  live : (sessionResourceQuery session.workspaceId session.id).selects row = true
  store : attachedType py data = "memory_store" →
    ∃ store, getResource surroundings.resources (attachedStoreRef py data)
        { resourceType := .memoryStore, workspaceId := session.workspaceId } =
          some store ∧
      Dict.get row.data "memory_store_id" = .str (attachedStoreRef py data) ∧
      Dict.get row.data "mount_path" =
        .str ("/mnt/memory/" ++ storeSegment py store (attachedStoreRef py data))
  fileRoom : data.get "type" = .str "file" →
    (countedResources seen session "file").length < MAX_SESSION_FILE_RESOURCES
  storeRoom : data.get "type" = .str "memory_store" →
    (countedResources seen session "memory_store").length <
      MAX_SESSION_MEMORY_STORE_RESOURCES

theorem fileSessionResource_type
    {py : Python} {surroundings : Surroundings} {context : FileContext}
    {session : SessionRef} {data : Dict} {resource : SessionResource}
    (hresource : fileSessionResource py surroundings context session data =
      .ok resource) :
    Dict.get resource.data "type" = .str "file" := by
  unfold fileSessionResource at hresource
  dsimp only at hresource
  obtain ⟨-, -, hresource⟩ := bind_eq_ok.mp hresource
  split at hresource
  · cases hresource
  next file hfile =>
    obtain ⟨-, -, hresource⟩ := bind_eq_ok.mp hresource
    split at hresource
    · cases hresource
    · cases hresource
    next source storage hsource hstorage =>
      obtain ⟨-, -, hresource⟩ := bind_eq_ok.mp hresource
      cases hresource
      rfl

theorem githubSessionResource_type
    {py : Python} {urlPath : UrlPath} {now : Time} {data : Dict}
    {resource : SessionResource}
    (hresource : githubSessionResource py urlPath now data = .ok resource) :
    Dict.get resource.data "type" = .str "github_repository" := by
  unfold githubSessionResource at hresource
  dsimp only at hresource
  obtain ⟨-, -, hresource⟩ := bind_eq_ok.mp hresource
  obtain ⟨-, -, hresource⟩ := bind_eq_ok.mp hresource
  obtain ⟨name, -, hresource⟩ := bind_eq_ok.mp hresource
  obtain ⟨-, -, hresource⟩ := bind_eq_ok.mp hresource
  split at hresource
  · cases hresource
    rfl
  · obtain ⟨checkout, -, hresource⟩ := bind_eq_ok.mp hresource
    cases hresource
    rfl

theorem memoryStoreSessionResource_eq_ok
    {py : Python} {surroundings : Surroundings} {workspaceId : String} {data : Dict}
    {resource : SessionResource}
    (hresource : memoryStoreSessionResource py surroundings workspaceId data =
      .ok resource) :
    ∃ store, getResource surroundings.resources (attachedStoreRef py (.dict data))
        { resourceType := .memoryStore, workspaceId := workspaceId } = some store ∧
      Dict.get resource.data "type" = .str "memory_store" ∧
      Dict.get resource.data "memory_store_id" =
        .str (attachedStoreRef py (.dict data)) ∧
      Dict.get resource.data "mount_path" = .str ("/mnt/memory/" ++
        storeSegment py store (attachedStoreRef py (.dict data))) := by
  unfold memoryStoreSessionResource at hresource
  dsimp only at hresource
  obtain ⟨-, -, hresource⟩ := bind_eq_ok.mp hresource
  split at hresource
  · cases hresource
  next store hstore =>
    refine ⟨store, hstore, ?_⟩
    obtain ⟨-, -, hresource⟩ := bind_eq_ok.mp hresource
    obtain ⟨-, -, hresource⟩ := bind_eq_ok.mp hresource
    split at hresource
    · cases hresource
      exact ⟨rfl, rfl, rfl⟩
    · obtain ⟨-, -, hresource⟩ := bind_eq_ok.mp hresource
      cases hresource
      exact ⟨rfl, rfl, rfl⟩

theorem checkCapacity_eq_ok
    {seen : List Resource} {session : SessionRef} {data : Json} {resourceType : String}
    {limit : ℕ} {message : String} :
    checkCapacity (attachedResources seen session) data resourceType limit message =
        .ok () ↔
      (data.get "type" = .str resourceType →
        (countedResources seen session resourceType).length < limit) := by
  unfold checkCapacity countedResources
  rw [raiseIf_eq_ok, not_and, not_le]

theorem normalizeSessionResourceData_eq_ok
    {context : AttachmentContext} {surroundings : Surroundings} {session : SessionRef}
    {allowedTypes : List String} {position : ℕ} {data : Json}
    {resource : SessionResource}
    (hresource : normalizeSessionResourceData context surroundings session allowedTypes
      position data = .ok resource) :
    Dict.get resource.data "type" = .str (attachedType context.py data) ∧
      (attachedType context.py data = "memory_store" →
        ∃ store, getResource surroundings.resources (attachedStoreRef context.py data)
            { resourceType := .memoryStore, workspaceId := session.workspaceId } =
            some store ∧
          Dict.get resource.data "memory_store_id" =
            .str (attachedStoreRef context.py data) ∧
          Dict.get resource.data "mount_path" = .str ("/mnt/memory/" ++
            storeSegment context.py store (attachedStoreRef context.py data))) := by
  unfold normalizeSessionResourceData at hresource
  split at hresource
  next fields =>
    have htype : context.py.str ((Dict.get fields "type").or (.str "")) =
        attachedType context.py (.dict fields) := rfl
    simp only [htype] at hresource
    split at hresource
    · cases hresource
    split at hresource
    next hfile =>
      rw [hfile]
      exact ⟨fileSessionResource_type hresource, fun h => absurd h (by decide)⟩
    split at hresource
    next hgithub =>
      rw [hgithub]
      exact ⟨githubSessionResource_type hresource, fun h => absurd h (by decide)⟩
    split at hresource
    next hstore =>
      obtain ⟨store, hfound, htype, hrest⟩ := memoryStoreSessionResource_eq_ok hresource
      exact ⟨by rw [hstore, htype], fun _ => ⟨store, hfound, hrest⟩⟩
    · cases hresource
  next => cases hresource

theorem createSessionResource_eq_ok
    {context : AttachmentContext} {surroundings : Surroundings} {session : SessionRef}
    {allowedTypes : List String} {position : ℕ} {seen : List Resource} {data : Json}
    {row : Resource}
    (hrow : createSessionResource context surroundings session allowedTypes position seen
      data = .ok row) :
    CreatedResource context.py surroundings session seen data row := by
  unfold createSessionResource at hrow
  dsimp only at hrow
  obtain ⟨⟨⟩, hfiles, hrow⟩ := bind_eq_ok.mp hrow
  obtain ⟨⟨⟩, hstores, hrow⟩ := bind_eq_ok.mp hrow
  obtain ⟨resource, hresource, hrow⟩ := bind_eq_ok.mp hrow
  obtain ⟨hkind, hstore⟩ := normalizeSessionResourceData_eq_ok hresource
  cases hrow
  exact {
    kind := hkind
    own := ⟨rfl, rfl⟩
    live := by simp [sessionResourceQuery, ResourceQuery.selects, createResource]
    store := hstore
    fileRoom := checkCapacity_eq_ok.mp hfiles
    storeRoom := checkCapacity_eq_ok.mp hstores }

/-! ## One more resource -/

theorem ofType_append (attached more : List Dict) (resourceType : String) :
    ofType (attached ++ more) resourceType =
      ofType attached resourceType ++ ofType more resourceType :=
  List.filter_append _ _

theorem ofType_of_kind
    {data : Dict} {kind resourceType : String}
    (hkind : Dict.get data "type" = .str kind) :
    ofType [data] resourceType = if kind = resourceType then [data] else [] := by
  simp [ofType, List.filter_cons, hkind]

theorem WithinLimits.mono
    {attached fewer : List Dict} (hwithin : WithinLimits attached)
    (hsublist : fewer.Sublist attached) : WithinLimits fewer := by
  have hsub : ∀ resourceType, (ofType fewer resourceType).Sublist
      (ofType attached resourceType) := fun _ => hsublist.filter _
  exact {
    files := (hsub _).length_le.trans hwithin.files
    stores := (hsub _).length_le.trans hwithin.stores
    mounted := fun store hstore => hwithin.mounted store ((hsub _).subset hstore)
    apart := fun first hfirst second hsecond =>
      hwithin.apart first ((hsub _).subset hfirst) second ((hsub _).subset hsecond) }

theorem WithinLimits.congr
    {attached other : List Dict}
    (hfiles : ofType other "file" = ofType attached "file")
    (hstores : ofType other "memory_store" = ofType attached "memory_store")
    (hwithin : WithinLimits attached) : WithinLimits other where
  files := hfiles ▸ hwithin.files
  stores := hstores ▸ hwithin.stores
  mounted := hstores ▸ hwithin.mounted
  apart := hstores ▸ hwithin.apart

theorem capacitySeen_iff
    {session : SessionRef} {seen actual : List Resource} {data : Json}
    {resourceType : String} {limit : ℕ}
    (hroom : data.get "type" = .str resourceType →
      (countedResources seen session resourceType).length < limit) :
    CapacitySeen session seen actual data resourceType limit ↔
      (ofType (sessionResources actual session) resourceType).length < limit := by
  constructor
  · intro hseen
    by_contra hfull
    obtain ⟨htype, hcounted⟩ := hseen (not_lt.mp hfull)
    exact absurd (hroom htype) (not_lt.mpr hcounted)
  · intro hfree hfull
    exact absurd hfree (not_lt.mpr hfull)

theorem storeMount_iff {segment : String} :
    StoreMount (.str ("/mnt/memory/" ++ segment)) ↔
      segment ≠ "" ∧ '/' ∉ segment.toList ∧ segment ≠ "." ∧ segment ≠ ".." := by
  constructor
  · rintro ⟨other, hmount, hsegment⟩
    rw [Json.str.injEq, String.append_right_inj] at hmount
    rwa [hmount]
  · intro hsegment
    exact ⟨segment, rfl, hsegment⟩

section

variable {py : Python} {surroundings : Surroundings} {session : SessionRef}
  {seen actual : List Resource} {data : Json} {row : Resource}

theorem withinLimits_file
    (hcreated : CreatedResource py surroundings session seen data row)
    (hfile : attachedType py data = "file")
    (hwithin : WithinLimits (sessionResources actual session)) :
    WithinLimits (sessionResources actual session ++ [row.data]) ↔
      CapacitySeen session seen actual data "file" MAX_SESSION_FILE_RESOURCES := by
  have hkind := hcreated.kind
  rw [hfile] at hkind
  have hfiles : (ofType (sessionResources actual session ++ [row.data]) "file").length =
      (ofType (sessionResources actual session) "file").length + 1 := by
    rw [ofType_append, ofType_of_kind hkind]
    simp
  have hstores : ofType (sessionResources actual session ++ [row.data]) "memory_store" =
      ofType (sessionResources actual session) "memory_store" := by
    rw [ofType_append, ofType_of_kind hkind]
    simp
  rw [capacitySeen_iff hcreated.fileRoom]
  constructor
  · intro hnext
    have hlength := hnext.files
    omega
  · intro hfree
    exact {
      files := by omega
      stores := hstores ▸ hwithin.stores
      mounted := hstores ▸ hwithin.mounted
      apart := hstores ▸ hwithin.apart }

theorem withinLimits_store
    (hcreated : CreatedResource py surroundings session seen data row)
    (hstore : attachedType py data = "memory_store")
    (hwithin : WithinLimits (sessionResources actual session)) :
    WithinLimits (sessionResources actual session ++ [row.data]) ↔
      CapacitySeen session seen actual data "memory_store"
          MAX_SESSION_MEMORY_STORE_RESOURCES ∧
        MountFree py surroundings session actual data := by
  obtain ⟨store, hfound, hid, hmount⟩ := hcreated.store hstore
  have hkind := hcreated.kind
  rw [hstore] at hkind
  have hfiles : ofType (sessionResources actual session ++ [row.data]) "file" =
      ofType (sessionResources actual session) "file" := by
    rw [ofType_append, ofType_of_kind hkind]
    simp
  have hstores : ofType (sessionResources actual session ++ [row.data]) "memory_store" =
      ofType (sessionResources actual session) "memory_store" ++ [row.data] := by
    rw [ofType_append, ofType_of_kind hkind]
    simp
  have hlength : (ofType (sessionResources actual session ++ [row.data])
      "memory_store").length =
      (ofType (sessionResources actual session) "memory_store").length + 1 := by
    rw [hstores, List.length_append, List.length_singleton]
  rw [capacitySeen_iff hcreated.storeRoom]
  constructor
  · intro hnext
    have hmounted := hnext.mounted row.data (by simp [hstores])
    rw [hmount, storeMount_iff] at hmounted
    refine ⟨?_, ?_⟩
    · have hstoresLength := hnext.stores
      omega
    · intro other hother
      obtain rfl := Option.some.inj (hfound.symm.trans hother)
      refine ⟨hmounted.2.2.1, hmounted.2.2.2, ?_⟩
      intro held hheld hdiffers
      have hapart := hnext.apart held (by simp [hstores, hheld]) row.data
        (by simp [hstores])
      rw [hid, hmount] at hapart
      exact hapart hdiffers
  · rintro ⟨hfree, hmountFree⟩
    obtain ⟨hdot, hdots, hothers⟩ := hmountFree store hfound
    refine ⟨hfiles ▸ hwithin.files, by omega, ?_, ?_⟩
    · intro held hheld
      rw [hstores, List.mem_append, List.mem_singleton] at hheld
      rcases hheld with hheld | rfl
      · exact hwithin.mounted held hheld
      · rw [hmount, storeMount_iff]
        exact ⟨storeSegment_ne_empty _ _ _, slash_notMem_storeSegment _ _ _, hdot, hdots⟩
    · intro first hfirst second hsecond hdiffers
      rw [hstores, List.mem_append, List.mem_singleton] at hfirst hsecond
      rcases hfirst with hfirst | rfl <;> rcases hsecond with hsecond | rfl
      · exact hwithin.apart first hfirst second hsecond hdiffers
      · rw [hid] at hdiffers
        rw [hmount]
        exact hothers first hfirst hdiffers
      · rw [hid] at hdiffers
        rw [hmount]
        exact (hothers second hsecond hdiffers.symm).symm
      · exact absurd rfl hdiffers

/-- A session stays within its limits with one more resource exactly if the resource is
attached safely. -/
theorem withinLimits_created
    (hcreated : CreatedResource py surroundings session seen data row) :
    WithinLimits (sessionResources actual session ++ [row.data]) ↔
      WithinLimits (sessionResources actual session) ∧
        SafeAttachment py surroundings session seen actual data := by
  have hsplit : WithinLimits (sessionResources actual session ++ [row.data]) ↔
      WithinLimits (sessionResources actual session) ∧
        WithinLimits (sessionResources actual session ++ [row.data]) :=
    ⟨fun hnext => ⟨hnext.mono (List.sublist_append_left _ _), hnext⟩, fun h => h.2⟩
  rw [hsplit]
  apply and_congr_right
  intro hwithin
  by_cases hfile : attachedType py data = "file"
  · rw [withinLimits_file hcreated hfile hwithin]
    refine ⟨fun hseen => ⟨fun _ => hseen, ?_, ?_⟩, fun hsafe => hsafe.files hfile⟩
    · exact fun hstore => absurd (hfile.symm.trans hstore) (by decide)
    · exact fun hstore => absurd (hfile.symm.trans hstore) (by decide)
  by_cases hstore : attachedType py data = "memory_store"
  · rw [withinLimits_store hcreated hstore hwithin]
    refine ⟨fun hboth => ⟨?_, fun _ => hboth.1, fun _ => hboth.2⟩, fun hsafe =>
      ⟨hsafe.stores hstore, hsafe.mount hstore⟩⟩
    exact fun hfile => absurd (hstore.symm.trans hfile) (by decide)
  · refine iff_of_true ?_ ⟨fun h => absurd h hfile, fun h => absurd h hstore,
      fun h => absurd h hstore⟩
    refine WithinLimits.congr ?_ ?_ hwithin
    · rw [ofType_append, ofType_of_kind hcreated.kind, if_neg hfile, List.append_nil]
    · rw [ofType_append, ofType_of_kind hcreated.kind, if_neg hstore, List.append_nil]

end

/-! ## Rows of a session after writes -/

theorem sessionResources_append_own
    {rows : List Resource} {row : Resource} {session : SessionRef}
    (hlive : (sessionResourceQuery session.workspaceId session.id).selects row = true) :
    sessionResources (rows ++ [row]) session =
      sessionResources rows session ++ [row.data] := by
  unfold sessionResources
  rw [List.filter_append, List.filter_cons_of_pos hlive, List.filter_nil, List.map_append]
  rfl

/-- The rows belong to the session. -/
def OwnedBy (session : SessionRef) (rows : List Resource) : Prop :=
  ∀ row ∈ rows, row.workspaceId = session.workspaceId ∧ row.parentId = some session.id

theorem sessionResources_append_other
    {rows added : List Resource} {session other : SessionRef}
    (howned : OwnedBy session added)
    (hother : ¬(other.workspaceId = session.workspaceId ∧ other.id = session.id)) :
    sessionResources (rows ++ added) other = sessionResources rows other := by
  have hnone : added.filter (sessionResourceQuery other.workspaceId other.id).selects =
      [] := by
    rw [List.filter_eq_nil_iff]
    intro row hrow hselected
    obtain ⟨hworkspace, hparent⟩ := howned row hrow
    simp only [ResourceQuery.selects, sessionResourceQuery,
      decide_eq_true_eq] at hselected
    obtain ⟨-, hsame, -, hid, -⟩ := hselected
    rw [hparent] at hid
    simp only [reduceCtorEq, Option.some.injEq, false_or] at hid
    exact hother ⟨hsame.symm.trans hworkspace, hid.symm⟩
  unfold sessionResources
  rw [List.filter_append, hnone, List.append_nil]

def AllWithin (rows : List Resource) : Prop :=
  ∀ session, WithinLimits (sessionResources rows session)

theorem allWithin_append
    {rows added : List Resource} {session : SessionRef} (howned : OwnedBy session added)
    (hall : AllWithin rows) :
    AllWithin (rows ++ added) ↔
      WithinLimits (sessionResources (rows ++ added) session) := by
  constructor
  · intro hnext
    exact hnext session
  · intro hwithin other
    by_cases hsame : other.workspaceId = session.workspaceId ∧ other.id = session.id
    · have hequal : other = session := by
        cases other
        cases session
        simpa [and_comm] using hsame
      exact hequal ▸ hwithin
    · rw [sessionResources_append_other howned hsame]
      exact hall other

/-- A deleted row is no longer one of its session. -/
theorem sessionResources_remove
    (rows : List Resource) (resourceId : String) {columns : Columns}
    (hdeleted : columns.deletedAt ≠ none) (session : SessionRef) :
    (sessionResources (updateRow rows resourceId columns) session).Sublist
      (sessionResources rows session) := by
  obtain ⟨now, hnow⟩ := Option.ne_none_iff_exists'.mp hdeleted
  unfold sessionResources updateRow
  induction rows with
  | nil => exact List.Sublist.refl _
  | cons row rest ih =>
      rw [List.map_cons]
      split
      next hid =>
        have hgone : (sessionResourceQuery session.workspaceId session.id).selects
            (columns.write row) = false := by
          simp [ResourceQuery.selects, sessionResourceQuery, Columns.write, hnow]
        rw [List.filter_cons_of_neg (by simp [hgone])]
        exact ih.trans ((List.Sublist.filter _ (List.sublist_cons_self row rest)).map _)
      next hid =>
        by_cases hlive :
            (sessionResourceQuery session.workspaceId session.id).selects row = true
        · rw [List.filter_cons_of_pos hlive, List.filter_cons_of_pos hlive]
          exact ih.cons_cons _
        · rw [List.filter_cons_of_neg hlive, List.filter_cons_of_neg hlive]
          exact ih

/-- New data of a row that is of another type before and after. -/
theorem ofType_updateRow
    {rows : List Resource} {resourceId resourceType : String} {data : Option Dict}
    (hbefore : ∀ row ∈ rows, row.id = resourceId →
      Dict.get row.data "type" ≠ .str resourceType)
    (hafter : ∀ written ∈ data, Dict.get written "type" ≠ .str resourceType)
    (session : SessionRef) :
    ofType (sessionResources (updateRow rows resourceId { data := data }) session)
        resourceType =
      ofType (sessionResources rows session) resourceType := by
  unfold sessionResources updateRow ofType
  induction rows with
  | nil => rfl
  | cons row rest ih =>
      have hrest := ih fun other hother => hbefore other (List.mem_cons_of_mem _ hother)
      rw [List.map_cons]
      split
      next hid =>
        have hselects :
            (sessionResourceQuery session.workspaceId session.id).selects
              (Columns.write { data := data } row) =
            (sessionResourceQuery session.workspaceId session.id).selects row := rfl
        have hrow := hbefore row List.mem_cons_self hid
        have hwritten : Dict.get (Columns.write { data := data } row).data "type" ≠
            .str resourceType := by
          cases data with
          | none => exact hrow
          | some written => exact hafter written rfl
        by_cases hlive :
            (sessionResourceQuery session.workspaceId session.id).selects row = true
        · rw [List.filter_cons_of_pos (hselects.trans hlive),
            List.filter_cons_of_pos hlive, List.map_cons, List.map_cons,
            List.filter_cons_of_neg (by simpa using hwritten),
            List.filter_cons_of_neg (by simpa using hrow), hrest]
        · rw [List.filter_cons_of_neg (by rw [hselects]; exact hlive),
            List.filter_cons_of_neg hlive, hrest]
      next hid =>
        by_cases hlive :
            (sessionResourceQuery session.workspaceId session.id).selects row = true
        · rw [List.filter_cons_of_pos hlive, List.filter_cons_of_pos hlive, List.map_cons,
            List.map_cons, List.filter_cons, List.filter_cons, hrest]
        · rw [List.filter_cons_of_neg hlive, List.filter_cons_of_neg hlive, hrest]

theorem commit_inserts
    {rows added next : List Resource}
    (hcommit : commit rows (added.map .insert) = some next) : next = rows ++ added := by
  induction added generalizing rows with
  | nil =>
      rw [List.map_nil, commit_nil, Option.some.injEq] at hcommit
      rw [List.append_nil, hcommit]
  | cons row rest ih =>
      rw [List.map_cons] at hcommit
      obtain ⟨-, hrest⟩ := commit_insert.mp hcommit
      rw [ih hrest, List.append_assoc, List.singleton_append]

/-! ## The loop of a new session -/

theorem createSessionResources_eq_ok
    {context : AttachmentContext} {surroundings : ℕ → Surroundings} {session : SessionRef}
    {view : ResourceView} {position : ℕ} {created rows : List Resource}
    {resources : List Json}
    (hrows : createSessionResources context surroundings session view position created
      resources = .ok rows) (current : List Resource) :
    ∃ added, rows = created ++ added ∧ OwnedBy session added ∧
      (WithinLimits (sessionResources (current ++ rows) session) ↔
        WithinLimits (sessionResources (current ++ created) session) ∧
          SafeAttachments context surroundings session view current position created
            resources) := by
  induction resources generalizing position created with
  | nil =>
      cases hrows
      exact ⟨[], by simp, by simp [OwnedBy], (and_iff_left trivial).symm⟩
  | cons data rest ih =>
      unfold createSessionResources at hrows
      obtain ⟨row, hrow, hrest⟩ := bind_eq_ok.mp hrows
      have hcreated := createSessionResource_eq_ok hrow
      obtain ⟨added, rfl, howned, hlimits⟩ := ih hrest
      refine ⟨row :: added, by simp, ?_, ?_⟩
      · intro other hother
        rcases List.mem_cons.mp hother with rfl | hother
        · exact hcreated.own
        · exact howned other hother
      · rw [hlimits, ← List.append_assoc, sessionResources_append_own hcreated.live,
          withinLimits_created hcreated, and_assoc]
        apply and_congr_right
        intro _
        simp only [SafeAttachments, hrow, Except.ok.injEq, forall_eq']

/-! ## What a request can do -/

theorem rotateSessionResourceToken_eq_ok
    {py : Python} {now : Time} {current data rotated : Dict}
    (hrotated : rotateSessionResourceToken py now current data = .ok rotated) :
    Dict.get current "type" = .str "github_repository" ∧
      Dict.get rotated "type" = .str "github_repository" := by
  unfold rotateSessionResourceToken at hrotated
  dsimp only at hrotated
  obtain ⟨⟨⟩, htype, hrotated⟩ := bind_eq_ok.mp hrotated
  rw [raiseIf_eq_ok, not_not] at htype
  obtain ⟨-, -, hrotated⟩ := bind_eq_ok.mp hrotated
  cases hrotated
  refine ⟨htype, ?_⟩
  rw [Dict.get_pop_other (by decide), Dict.get_set_other _ (by decide),
    Dict.get_set_other _ (by decide), htype]

/-- A request adds rows of its session, writes new data of a repository, or deletes a
row. -/
inductive ResourceWrite (settings : ResourceSettings) (call : ResourceCall)
    (view : ResourceView) (current : List Resource) : List Resource → Prop
  | added (rows : List Resource) (howned : OwnedBy call.session rows)
      (hlimits : WithinLimits (sessionResources (current ++ rows) call.session) ↔
        WithinLimits (sessionResources current call.session) ∧
          call.Safe settings view current) :
      ResourceWrite settings call view current (current ++ rows)
  | rotated (held : Resource) (data : Option Dict) (hheld : held ∈ view 0)
      (hbefore : Dict.get held.data "type" = .str "github_repository")
      (hafter : ∀ written ∈ data,
        Dict.get written "type" = .str "github_repository")
      (hsafe : call.Safe settings view current) :
      ResourceWrite settings call view current
        (updateRow current held.id { data := data })
  | removed (resourceId : String) (now : Time) (status : Option ResourceStatus)
      (hsafe : call.Safe settings view current) :
      ResourceWrite settings call view current
        (updateRow current resourceId { deletedAt := some now, status := status })

theorem ResourceCall.write_of_body
    {settings : ResourceSettings} {call : ResourceCall} {view : ResourceView}
    {current next : List Resource}
    (hbody : call.body settings view current = some next) :
    ResourceWrite settings call view current next := by
  unfold ResourceCall.body at hbody
  split at hbody
  next statements hstatements =>
    obtain ⟨session, surroundings, draws, request⟩ := call
    cases request with
    | create resources =>
        obtain ⟨rows, hrows, hdone⟩ := bind_eq_ok.mp hstatements
        cases hdone
        obtain rfl := commit_inserts hbody
        obtain ⟨added, rfl, howned, hlimits⟩ := createSessionResources_eq_ok hrows current
        rw [List.append_nil] at hlimits
        exact .added _ howned hlimits
    | add data =>
        obtain ⟨row, hrow, hdone⟩ := bind_eq_ok.mp hstatements
        cases hdone
        obtain rfl := @commit_inserts _ [row] _ hbody
        have hcreated := createSessionResource_eq_ok hrow
        refine .added _ ?_ ?_
        · intro other hother
          obtain rfl := List.mem_singleton.mp hother
          exact hcreated.own
        · rw [sessionResources_append_own hcreated.live]
          exact withinLimits_created hcreated
    | rotate resourceId data =>
        obtain ⟨held, hheld, hdone⟩ := bind_eq_ok.mp hstatements
        obtain ⟨rotated, hrotated, hdone⟩ := bind_eq_ok.mp hdone
        cases hdone
        unfold findSessionResource at hheld
        split at hheld
        next found hfound =>
          cases hheld
          obtain ⟨hbefore, hafter⟩ := rotateSessionResourceToken_eq_ok hrotated
          simp only [updateResource, commit_update, commit_nil, Option.some.injEq,
            ite_self] at hbody
          subst hbody
          refine .rotated _ _ (getResource_eq_some hfound).1 hbefore ?_ trivial
          intro written hwritten
          split at hwritten
          · cases hwritten
          · cases hwritten
            exact hafter
        next => cases hheld
    | remove resourceId =>
        obtain ⟨held, hheld, hdone⟩ := bind_eq_ok.mp hstatements
        obtain ⟨-, -, hdone⟩ := bind_eq_ok.mp hdone
        cases hdone
        simp only [deleteResource, commit_update, commit_nil, Option.some.injEq] at hbody
        subst hbody
        exact .removed _ _ _ trivial
  next => cases hbody

/-! ## Runs -/

/-- A row stays, with the type of its data. -/
def RowsStay (earlier later : List Resource) : Prop :=
  ∀ row ∈ earlier, ∃ other ∈ later, other.id = row.id ∧
    Dict.get other.data "type" = Dict.get row.data "type"

theorem RowsStay.refl (rows : List Resource) : RowsStay rows rows :=
  fun row hrow => ⟨row, hrow, rfl, rfl⟩

theorem RowsStay.trans
    {first second third : List Resource} (hfirst : RowsStay first second)
    (hsecond : RowsStay second third) : RowsStay first third := by
  intro row hrow
  obtain ⟨middle, hmiddle, hid, htype⟩ := hfirst row hrow
  obtain ⟨last, hlast, hlastId, hlastType⟩ := hsecond middle hmiddle
  exact ⟨last, hlast, hlastId.trans hid, hlastType.trans htype⟩

theorem rowsStay_updateRow
    {rows : List Resource} {resourceId : String} {columns : Columns}
    (htype : ∀ row ∈ rows, row.id = resourceId → ∀ written ∈ columns.data,
      Dict.get written "type" = Dict.get row.data "type") :
    RowsStay rows (updateRow rows resourceId columns) := by
  intro row hrow
  by_cases hid : row.id = resourceId
  · refine ⟨columns.write row, mem_updateRow.mpr (Or.inr ⟨row, hrow, hid, rfl⟩), rfl, ?_⟩
    cases hdata : columns.data with
    | none => simp [Columns.write, hdata]
    | some written =>
        have hsame := htype row hrow hid written hdata
        simpa [Columns.write, hdata] using hsame
  · exact ⟨row, mem_updateRow.mpr (Or.inl ⟨hrow, hid⟩), rfl, rfl⟩

def DistinctIds (rows : List Resource) : Prop :=
  (rows.map ManagedResource.id).Nodup

section

variable {settings : ResourceSettings} {call : ResourceCall} {view : ResourceView}
  {current next : List Resource}

/-- The row which a request has found is a repository still. -/
theorem type_of_held
    (hreads : Reads DistinctIds RowsStay view current) {held row : Resource}
    (hheld : held ∈ view 0) (hrow : row ∈ current) (hid : row.id = held.id) :
    Dict.get row.data "type" = Dict.get held.data "type" := by
  obtain ⟨other, hother, hsame, htype⟩ := hreads.kept 0 held hheld
  obtain rfl := List.inj_on_of_nodup_map hreads.invariant hrow hother
    (hid.trans hsame.symm)
  exact htype

theorem ResourceCall.body_stays
    (hreads : Reads DistinctIds RowsStay view current)
    (hbody : call.body settings view current = some next) :
    DistinctIds next ∧ RowsStay current next := by
  constructor
  · unfold ResourceCall.body at hbody
    split at hbody
    · exact commit_ids hreads.invariant hbody
    · cases hbody
  · cases ResourceCall.write_of_body hbody with
    | added rows howned hlimits =>
        intro row hrow
        exact ⟨row, List.mem_append_left _ hrow, rfl, rfl⟩
    | rotated held data hheld hbefore hafter hsafe =>
        refine rowsStay_updateRow fun row hrow hid written hwritten => ?_
        rw [hafter written hwritten, type_of_held hreads hheld hrow hid, hbefore]
    | removed resourceId now status hsafe =>
        refine rowsStay_updateRow fun row hrow hid written hwritten => ?_
        cases hwritten

theorem ResourceCall.body_within_iff
    (hreads : Reads DistinctIds RowsStay view current) (hall : AllWithin current)
    (hbody : call.body settings view current = some next) :
    AllWithin next ↔ call.Safe settings view current := by
  cases ResourceCall.write_of_body hbody with
  | added rows howned hlimits =>
      rw [allWithin_append howned hall, hlimits, and_iff_right (hall call.session)]
  | rotated held data hheld hbefore hafter hsafe =>
      refine iff_of_true (fun session => ?_) hsafe
      have hother : ∀ resourceType, resourceType ≠ "github_repository" →
          ofType (sessionResources (updateRow current held.id { data := data }) session)
            resourceType = ofType (sessionResources current session) resourceType := by
        intro resourceType hne
        refine ofType_updateRow (fun row hrow hid => ?_)
          (fun written hwritten => ?_) session
        · rw [type_of_held hreads hheld hrow hid, hbefore]
          simpa using hne.symm
        · rw [hafter written hwritten]
          simpa using hne.symm
      exact (hall session).congr (hother "file" (by decide))
        (hother "memory_store" (by decide))
  | removed resourceId now status hsafe =>
      refine iff_of_true (fun session => ?_) hsafe
      exact (hall session).mono
        (sessionResources_remove current resourceId (by simp) session)

end

/-- No row is there. -/
def emptyResources : Timeline (List Resource) := { current := [], past := [] }

/-- Every session stays within its limits in all committed states exactly if every
request that commits has attached its resources safely. -/
theorem resource_limits_iff
    {settings : ResourceSettings} {calls : List (ResourceCall × List ℕ)}
    {last : Timeline (List Resource)}
    (hrun : run (resourceTimelineStep settings) emptyResources calls = some last) :
    (∀ rows ∈ last.history, ∀ session, WithinLimits (sessionResources rows session)) ↔
      AllSteps (resourceTimelineStep settings)
        (OnCommit (ResourceCall.body settings) (ResourceCall.Safe settings))
        emptyResources calls := by
  have hempty : ∀ session, WithinLimits (sessionResources [] session) := by
    intro session
    constructor <;> simp [sessionResources, ofType]
  have hordered : emptyResources.Ordered DistinctIds RowsStay := by
    constructor <;> simp [emptyResources, Timeline.history, DistinctIds]
  have hiff := @run_iff _ _ (ResourceCall.body settings) DistinctIds RowsStay
    (ResourceCall.Safe settings) AllWithin RowsStay.refl (fun _ _ _ => RowsStay.trans)
    (fun _ _ _ _ hreads hbody => ResourceCall.body_stays hreads hbody)
    (fun _ _ _ _ hreads _ hall hbody => ResourceCall.body_within_iff hreads hall hbody)
    _ _ _ hordered hrun
  have hstart : ∀ rows ∈ emptyResources.history, AllWithin rows := by
    intro rows hrows
    obtain rfl := List.mem_singleton.mp hrows
    exact hempty
  exact hiff.trans (and_iff_right hstart)

/-! ## Sample sessions -/

def sampleResourceSettings : ResourceSettings where
  py := samplePython
  urlPath := fun url => .ok url

def sampleNamedStore (id name : String) : Resource where
  id := id
  workspaceId := "ws"
  resourceType := .memoryStore
  name := some name
  status := .active
  data := []
  createdAt := 0

def sampleResourceDraws : ResourceDraws where
  files := fun position =>
    { sampleFileContext with
      supply := { sampleFileSupply with
        uuidHex := fun _ =>
          { text := String.ofList (List.replicate (position + 1) 'a')
            digits := by
              intro char hchar
              rw [String.toList_ofList] at hchar
              rw [List.eq_of_mem_replicate hchar]
              rfl } } }
  clock := fun _ => 0

def sampleSession : SessionRef := { id := "sess_1", workspaceId := "ws" }

/-- A session with two memory stores of these names. -/
def sampleStoresCall (first second : String) : ResourceCall where
  session := sampleSession
  surroundings := fun _ =>
    { sampleSurroundings with
      resources :=
        [sampleNamedStore "memstore_1" first, sampleNamedStore "memstore_2" second] }
  draws := sampleResourceDraws
  request := .create
    [.dict [("type", .str "memory_store"), ("memory_store_id", .str "memstore_1")],
     .dict [("type", .str "memory_store"), ("memory_store_id", .str "memstore_2")]]

def sampleStoresRun (first second : String) : Option (Timeline (List Resource)) :=
  run (resourceTimelineStep sampleResourceSettings) emptyResources
    [(sampleStoresCall first second, [])]

def sampleNotes : Timeline (List Resource) :=
  (sampleStoresRun "Team notes" "Own notes").get (by decide)

theorem sample_resource_limits :
    (∀ rows ∈ sampleNotes.history, ∀ session,
      WithinLimits (sessionResources rows session)) ↔
    AllSteps (resourceTimelineStep sampleResourceSettings)
      (OnCommit (ResourceCall.body sampleResourceSettings)
        (ResourceCall.Safe sampleResourceSettings)) emptyResources
      [(sampleStoresCall "Team notes" "Own notes", [])] :=
  @resource_limits_iff sampleResourceSettings
    [(sampleStoresCall "Team notes" "Own notes", [])] sampleNotes (Option.some_get _).symm

def sampleSameNotes : Timeline (List Resource) :=
  (sampleStoresRun "Team notes" "team-notes!").get (by decide)

def sampleParentNotes : Timeline (List Resource) :=
  (sampleStoresRun ".." "Own notes").get (by decide)

/-- Two names leave one segment, and a name leaves the segment of the parent. -/
theorem stores_overlay_each_other :
    ¬(∀ rows ∈ sampleSameNotes.history, ∀ session,
      WithinLimits (sessionResources rows session)) ∧
    ¬(∀ rows ∈ sampleParentNotes.history, ∀ session,
      WithinLimits (sessionResources rows session)) := by
  constructor
  · intro hall
    have hwithin := hall sampleSameNotes.current List.mem_cons_self sampleSession
    have hsame : ∃ first ∈ ofType (sessionResources sampleSameNotes.current sampleSession)
          "memory_store",
        ∃ second ∈ ofType (sessionResources sampleSameNotes.current sampleSession)
          "memory_store",
        Dict.get first "memory_store_id" ≠ Dict.get second "memory_store_id" ∧
          Dict.get first "mount_path" = Dict.get second "mount_path" := by
      decide
    obtain ⟨first, hfirst, second, hsecond, hdiffers, hmount⟩ := hsame
    exact hwithin.apart first hfirst second hsecond hdiffers hmount
  · intro hall
    have hwithin := hall sampleParentNotes.current List.mem_cons_self sampleSession
    have hparent : ∃ store ∈ ofType
          (sessionResources sampleParentNotes.current sampleSession) "memory_store",
        Dict.get store "mount_path" = .str ("/mnt/memory/" ++ "..") := by
      decide
    obtain ⟨store, hstore, hmount⟩ := hparent
    have hmounted := hwithin.mounted store hstore
    rw [hmount, storeMount_iff] at hmounted
    exact hmounted.2.2.2 rfl

end ManagedAgents
