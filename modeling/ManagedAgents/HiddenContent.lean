import ManagedAgents.DictAgreement
import ManagedAgents.MemorySystem
import ManagedAgents.MemoryData
import ManagedAgents.Responses

/-!
# Content hidden from version responses

The basic view and the versions of deletions set the content of a response to
`None`, and for deletions the digest and the size too.  The response keeps the
key `snapshot` of the row, which records the content a second time.
-/

namespace ManagedAgents

open Fallible

/-! ## Rows which differ in their content -/

/-- Values of the key `snapshot`: two dictionaries which agree but for the
keys, or the same value. -/
def SnapshotsAgree (keys : List String) (left right : Json) : Prop :=
  (∃ first second, left = .dict first ∧ right = .dict second ∧
    Dict.AgreeExcept keys first second) ∨ left = right

/-- Version rows which record different values under the keys, and the same
everywhere else.  A dictionary has each key once. -/
structure DifferOnlyIn (keys : List String) (row other : Resource) : Prop where
  resourceType : row.resourceType = .memoryVersion
  columns : { row with data := other.data } = other
  data : Dict.Alike ("snapshot" :: keys) row.data other.data
  snapshot : SnapshotsAgree keys (Dict.get row.data "snapshot")
    (Dict.get other.data "snapshot")

/-- The keys under which a version records its content. -/
def CONTENT_KEYS : List String :=
  ["content", "content_sha256", "content_size_bytes"]

theorem Dict.AgreeExcept.snapshot
    {keys : List String} {left right : Dict}
    (hagree : Dict.AgreeExcept keys left right) :
    Dict.AgreeExcept keys (memorySnapshot left) (memorySnapshot right) := by
  have hpop : ∀ fields : Dict, memorySnapshot fields = Dict.pop fields "path_key" := by
    intro fields
    simp [memorySnapshot, Dict.pop]
  rw [hpop, hpop]
  exact hagree.pop "path_key"

/-- Versions of two memories which differ in their content differ in nothing
but the content they record. -/
theorem createMemoryVersion_differ
    (supply : Supply) (draw reading : ℕ) (workspaceId : String) (memory : Resource)
    (version : ℤ) (actor operation : String) {keys : List String} {data other : Dict}
    (hkeys : ∀ key ∈ keys, key ∈ CONTENT_KEYS) (hdata : data ≠ [])
    (hagree : Dict.AgreeExcept keys data other) :
    DifferOnlyIn keys
      (createMemoryVersion supply draw reading workspaceId memory version actor operation
        (some data))
      (createMemoryVersion supply draw reading workspaceId memory version actor operation
        (some other)) := by
  have hother : other ≠ [] := by
    rintro rfl
    cases hagree
    exact hdata rfl
  have hsnapshot := hagree.snapshot
  have hget : ∀ key ∈ ["path", "path_key", "session_id"],
      Dict.get data key = Dict.get other key := by
    intro key hkey
    refine hagree.get fun hmem => ?_
    have hcontent := hkeys key hmem
    have hapart : ∀ key ∈ ["path", "path_key", "session_id"], key ∉ CONTENT_KEYS := by
      decide
    exact hapart key hkey hcontent
  have hstored : ∀ fields : Dict, fields ≠ [] →
      (createMemoryVersion supply draw reading workspaceId memory version actor operation
        (some fields)).data =
      memoryVersionData memory version actor operation fields := by
    intro fields hfields
    simp [createMemoryVersion, createResource, Option.filter, hfields]
  have hdistinct :
      ((memoryVersionData memory version actor operation data).map Prod.fst).Nodup := by
    simp [memoryVersionData]
  constructor
  · rfl
  · simp [createMemoryVersion, createResource]
  · rw [hstored data hdata, hstored other hother]
    refine ⟨?_, hdistinct⟩
    unfold memoryVersionData
    have hrecorded : ∀ key, key ∉ keys →
        Dict.get (memorySnapshot data) key = Dict.get (memorySnapshot other) key :=
      fun _ hkey => hsnapshot.get hkey
    simp only [Dict.AgreeExcept, List.forall₂_cons, List.forall₂_nil_left_iff, and_true,
      true_and, implies_true, List.mem_cons, not_or, and_imp, not_true_eq_false,
      false_implies]
    exact ⟨fun _ _ => hget _ (by simp), fun _ _ => hget _ (by simp),
      fun _ hkey => hrecorded _ hkey, fun _ hkey => hrecorded _ hkey,
      fun _ hkey => hrecorded _ hkey, fun _ _ => hget _ (by simp)⟩
  · rw [hstored data hdata, hstored other hother]
    exact Or.inl
      ⟨_, _, (memoryVersionData_get ..).2.2.1, (memoryVersionData_get ..).2.2.1,
      hsnapshot⟩

/-! ## Agreement of the responses -/

theorem Dict.Alike.setdefaultSome
    {keys : List String} {left right : Dict} (halike : Dict.Alike keys left right)
    (key : String) (value : Option Json) :
    Dict.Alike keys (left.setdefaultSome key value) (right.setdefaultSome key value) := by
  cases value with
  | none => exact halike
  | some value => exact halike.setdefault key value

section

variable {keys : List String} {row : Resource} {data : Dict}

theorem resourceToResponse_alike
    (py : Interpreter) (columns : ShownColumns) (publicType : Option String)
    (htype : row.resourceType = .memoryVersion)
    (halike : Dict.Alike keys row.data data) :
    Dict.Alike keys (resourceToResponse py columns row publicType)
      (resourceToResponse py columns { row with data := data } publicType) := by
  unfold resourceToResponse
  simp only [redactedResourceData, htype, reduceCtorEq, or_self, if_false]
  refine .setdefaultSome (.setdefaultSome (.setdefaultSome (.setdefaultSome
    (.setdefaultSome ?_ _ _) _ _) _ _) _ _) _ _
  have htimes := (((halike.set "id" (.str row.id)).set "type"
    (.str (publicType.getD ResourceType.memoryVersion.name))).set
      "created_at" (.str (py.isoformat row.createdAt))).set
      "updated_at" (.str (py.isoformat columns.updatedAt))
  have hcolumns :=
    (((htimes.set "archived_at" (shownTime py row.archivedAt)).setdefaultSome
    "version" (row.version.map .int)).setdefaultSome "name"
      (row.name.map .str)).setdefault
      "status" (.str row.status.name)
  cases row.deletedAt with
  | none => exact hcolumns
  | some deletedAt => exact hcolumns.set _ _

/-- The header reads no key under which content is recorded. -/
theorem versionHeader_alike
    (py : Interpreter) (columns : ShownColumns) (snapshot : Dict)
    (hkeys : ∀ key ∈ keys, key ∈ CONTENT_KEYS)
    (htype : row.resourceType = .memoryVersion)
    (halike : Dict.Alike keys row.data data) :
    Dict.Alike keys (versionHeader py columns row snapshot)
      (versionHeader py columns { row with data := data } snapshot) := by
  have hget : ∀ key ∉ CONTENT_KEYS, Dict.get row.data key = Dict.get data key :=
    fun key hkey => halike.agree.get fun hmem => hkey (hkeys key hmem)
  unfold versionHeader recordedField
  dsimp only
  rw [hget "memory_store_id" (by decide), hget "memory_id" (by decide),
    hget "operation" (by decide), hget "created_by" (by decide),
    hget "actor" (by decide), hget "redacted_at" (by decide)]
  exact .set (.pop (.set (.set (.set (.set
    (resourceToResponse_alike py columns _ htype halike) _ _) _ _) _ _) _ _) _) _ _

/-- Setting the content and its digest leaves no difference. -/
theorem VersionContent.write_eq
    (shown : VersionContent) {left right : Dict}
    (halike : Dict.Alike CONTENT_KEYS left right) :
    shown.write left = shown.write right := by
  have hpath := (halike.set_hidden shown.content).set "path" shown.path
  have hsha := hpath.set_hidden shown.contentSha256
  exact (hsha.set_hidden shown.contentSizeBytes).agree.eq_of_nil

end

/-! ## The views which hide content -/

/-- The view shows no content, or the version is a deletion, which shows no
digest either. -/
def HidesContent (view : Option String) (data : Dict) (keys : List String) : Prop :=
  (view = some "basic" ∧ keys = ["content"]) ∨
    (memoryVersionOperation (Dict.get data "operation") = "deleted" ∧
      keys = CONTENT_KEYS)

theorem HidesContent.keys
    {view : Option String} {data : Dict} {keys : List String}
    (hhides : HidesContent view data keys) : ∀ key ∈ keys, key ∈ CONTENT_KEYS := by
  rcases hhides with ⟨-, rfl⟩ | ⟨-, rfl⟩ <;> simp [CONTENT_KEYS]

theorem versionContent_agree
    (py : Interpreter) {view : Option String} {keys : List String}
    {data other snapshot otherSnapshot : Dict}
    (hhides : HidesContent view data keys)
    (hdata : Dict.AgreeExcept ("snapshot" :: keys) data other)
    (hsnapshot : Dict.AgreeExcept keys snapshot otherSnapshot) :
    versionContent py view data snapshot =
      versionContent py view other otherSnapshot := by
  have hkeys := hhides.keys
  have hget : ∀ key, key ≠ "snapshot" → key ∉ keys →
      Dict.get data key = Dict.get other key := by
    intro key hne hkey
    apply hdata.get
    rw [List.mem_cons, not_or]
    exact ⟨hne, hkey⟩
  have hpublic : ∀ key, key ∉ CONTENT_KEYS → key ∉ keys :=
    fun key hkey hmem => hkey (hkeys key hmem)
  have hrecorded : ∀ key, key ≠ "snapshot" → key ∉ keys →
      recordedField data snapshot key = recordedField other otherSnapshot key := by
    intro key hne hkey
    rw [recordedField, recordedField, hget key hne hkey, hsnapshot.get hkey]
  unfold versionContent isRedacted
  rw [hget "redacted" (by decide) (hpublic _ (by decide)),
    hget "redacted_at" (by decide) (hpublic _ (by decide)),
    hrecorded "path" (by decide) (hpublic _ (by decide)),
    hget "operation" (by decide) (hpublic _ (by decide))]
  rcases hhides with ⟨rfl, rfl⟩ | ⟨hdeleted, -⟩
  · rw [hrecorded "content_sha256" (by decide) (by decide),
      hrecorded "content_size_bytes" (by decide) (by decide)]
    rfl
  · rw [hget "operation" (by decide) (hpublic _ (by decide))] at hdeleted
    simp only [hdeleted, if_true]

/-- The stored path of a version that is not redacted cannot be shown. -/
def PathRefused (py : Interpreter) (data : Dict) : Prop :=
  isRedacted data = false ∧
    ∃ error, normalizeMemoryPath py
      ((Dict.get data "path").or ((Dict.get data "snapshot").get "path")) = .error error

theorem versionContent_eq_error
    {py : Interpreter} {view : Option String} {data snapshot : Dict}
    (hsnapshot : Dict.get data "snapshot" = .dict snapshot) :
    (∃ error, versionContent py view data snapshot = .error error) ↔
      PathRefused py data := by
  unfold versionContent PathRefused
  cases hredacted : isRedacted data with
  | true => simp
  | false =>
      simp only [hsnapshot, Json.get, recordedField, Bool.false_eq_true, if_false,
        true_and]
      cases normalizeMemoryPath py
        ((Dict.get data "path").or (Dict.get snapshot "path")) with
      | error error => simp [bind, Except.bind]
      | ok path =>
          refine iff_of_false ?_ (by simp)
          rintro ⟨error, herror⟩
          simp only [bind, Except.bind, pure, Except.pure] at herror
          split at herror <;> cases herror

/-- Rows which differ in hidden content alone have the same response exactly
if they have the same snapshot. -/
theorem hidden_version_responses_iff
    (py : Interpreter) (columns : ShownColumns) {viewName view : Option String}
    {keys : List String} {row other : Resource}
    (hview : normalizeMemoryView viewName = .ok view)
    (hhides : HidesContent view row.data keys) (hdiffer : DifferOnlyIn keys row other) :
    memoryVersionResponse py columns viewName row =
        memoryVersionResponse py columns viewName other ↔
      Dict.get row.data "snapshot" = Dict.get other.data "snapshot" ∨
        PathRefused py row.data := by
  obtain ⟨htype, hcolumns, hdata, hsnapshot⟩ := hdiffer
  rw [← hcolumns]
  generalize other.data = data at *
  rcases hsnapshot with ⟨first, second, hfirst, hsecond, hagree⟩ | hsame
  · have hcontent := versionContent_agree py hhides hdata.agree hagree
    have hrefused := @versionContent_eq_error py view row.data first hfirst
    unfold memoryVersionResponse
    simp only [hview, hfirst, hsecond, toDict_dict, ← hcontent, ← hrefused, bind,
      Except.bind]
    cases hshown : versionContent py view row.data first with
    | error error => simp
    | ok shown =>
        simp only [pure, Except.pure, Except.ok.injEq, reduceCtorEq, exists_false,
          or_false, Json.dict.injEq]
        constructor
        · intro hequal
          have hshows := get_versionResponse_snapshot py columns htype first shown
          have hothers := @get_versionResponse_snapshot py columns
            { row with data := data } htype second shown
          rw [hequal, hothers, hfirst] at hshows
          exact (Json.dict.inj (hsecond.symm.trans hshows)).symm
        · rintro rfl
          have halike := hdata.of_get (hfirst.trans hsecond.symm)
          refine shown.write_eq ?_
          have hheader := versionHeader_alike py columns first hhides.keys htype halike
          exact ⟨hheader.agree.mono hhides.keys, hheader.distinct⟩
  · refine iff_of_true ?_ (Or.inl hsame)
    have halike := hdata.of_get hsame
    unfold memoryVersionResponse
    rw [hview, ← hsame]
    cases htoDict : toDict (Dict.get row.data "snapshot") with
    | error error => rfl
    | ok snapshot =>
        have hcontent := versionContent_agree py hhides hdata.agree
          (Dict.AgreeExcept.refl keys snapshot)
        have hheader := versionHeader_alike py columns snapshot hhides.keys htype halike
        simp only [bind, Except.bind, ← hcontent]
        cases versionContent py view row.data snapshot with
        | error error => rfl
        | ok shown =>
            exact congrArg Except.ok
              (shown.write_eq ⟨hheader.agree.mono hhides.keys, hheader.distinct⟩)

/-! ## Two samples -/

/-- A memory with the digest of a given text. -/
def sampleMemoryData (content digested : String) : Dict :=
  [("path", .str "/plan"), ("path_key", .str "plan"), ("content", .str content)] ++
    contentMetadata digested

def sampleMemoryRow : Resource where
  id := "mem_b0"
  workspaceId := "wrkspc_default"
  resourceType := .memory
  parentId := some "memstore_a0"
  version := none
  name := some "plan"
  status := .active
  data := []
  createdAt := 0

def sampleRecord (operation content digested : String) : Resource :=
  createMemoryVersion (sampleSupply "c") 0 0 "wrkspc_default" sampleMemoryRow 2 "api"
    operation (some (sampleMemoryData content digested))

theorem sampleDeletions_differ :
    DifferOnlyIn CONTENT_KEYS (sampleRecord "deleted" "draft" "draft")
      (sampleRecord "deleted" "final" "final") := by
  refine createMemoryVersion_differ _ _ _ _ _ _ _ _ (fun _ hkey => hkey) ?_ ?_
  · simp [sampleMemoryData]
  · simp [sampleMemoryData, contentMetadata, Dict.AgreeExcept, CONTENT_KEYS]

theorem sampleChanges_differ :
    DifferOnlyIn ["content"] (sampleRecord "modified" "draft" "draft")
      (sampleRecord "modified" "final" "draft") := by
  refine createMemoryVersion_differ _ _ _ _ _ _ _ _ (by decide) ?_ ?_
  · simp [sampleMemoryData]
  · simp [sampleMemoryData, contentMetadata, Dict.AgreeExcept]

theorem sample_hidden_version_responses_iff :
    memoryVersionResponse sampleInterpreter { updatedAt := 0 } none
          (sampleRecord "deleted" "draft" "draft") =
        memoryVersionResponse sampleInterpreter { updatedAt := 0 } none
          (sampleRecord "deleted" "final" "final") ↔
      Dict.get (sampleRecord "deleted" "draft" "draft").data "snapshot" =
          Dict.get (sampleRecord "deleted" "final" "final").data "snapshot" ∨
        PathRefused sampleInterpreter (sampleRecord "deleted" "draft" "draft").data :=
  hidden_version_responses_iff sampleInterpreter { updatedAt := 0 } rfl
    (Or.inr ⟨by decide, rfl⟩) sampleDeletions_differ

/-- The snapshot which the response shows. -/
def shownSnapshot (viewName : Option String) (row : Resource) : Option Json :=
  (memoryVersionResponse sampleInterpreter { updatedAt := 0 } viewName row).toOption.map
    fun response => Dict.get response "snapshot"

theorem hidden_content_shown :
    (DifferOnlyIn CONTENT_KEYS (sampleRecord "deleted" "draft" "draft")
        (sampleRecord "deleted" "final" "final") ∧
      memoryVersionResponse sampleInterpreter { updatedAt := 0 } none
          (sampleRecord "deleted" "draft" "draft") ≠
        memoryVersionResponse sampleInterpreter { updatedAt := 0 } none
          (sampleRecord "deleted" "final" "final")) ∧
    DifferOnlyIn ["content"] (sampleRecord "modified" "draft" "draft")
        (sampleRecord "modified" "final" "draft") ∧
      memoryVersionResponse sampleInterpreter { updatedAt := 0 } (some "basic")
          (sampleRecord "modified" "draft" "draft") ≠
        memoryVersionResponse sampleInterpreter { updatedAt := 0 } (some "basic")
          (sampleRecord "modified" "final" "draft") := by
  have hdeletions : shownSnapshot none (sampleRecord "deleted" "draft" "draft") ≠
      shownSnapshot none (sampleRecord "deleted" "final" "final") := by decide
  have hchanges : shownSnapshot (some "basic") (sampleRecord "modified" "draft" "draft") ≠
      shownSnapshot (some "basic") (sampleRecord "modified" "final" "draft") := by
    decide
  refine ⟨⟨sampleDeletions_differ, fun hequal => hdeletions ?_⟩, sampleChanges_differ,
    fun hequal => hchanges ?_⟩
  · rw [shownSnapshot, shownSnapshot, hequal]
  · rw [shownSnapshot, shownSnapshot, hequal]

end ManagedAgents
