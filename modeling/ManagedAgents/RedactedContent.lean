import ManagedAgents.HiddenContent
import ManagedAgents.MemoryRecords

/-!
# Redacted versions

A redaction takes the content out of the snapshot of a version row.  The row
keeps the content a second time, under the key `content`, and responses show
the snapshot, in which its digest and its size remain.
-/

namespace ManagedAgents

open Fallible LabelledRuns ReadCommitted

/-! ## Values inside values -/

mutual

/-- The value is the other one or stands in it at some depth. -/
def Json.occurs (needle : Json) : Json → Bool
  | .dict fields => .dict fields = needle || Json.occursFields needle fields
  | .list items => .list items = needle || Json.occursItems needle items
  | value => value = needle

def Json.occursItems (needle : Json) : List Json → Bool
  | [] => false
  | item :: rest => Json.occurs needle item || Json.occursItems needle rest

def Json.occursFields (needle : Json) : List (String × Json) → Bool
  | [] => false
  | (_, value) :: rest => Json.occurs needle value || Json.occursFields needle rest

end

theorem Json.occurs_self (value : Json) : Json.occurs value value = true := by
  cases value <;> simp [Json.occurs]

theorem Json.occurs_of_get
    {fields : Dict} {key text : String} (hget : Dict.get fields key = .str text) :
    Json.occurs (.str text) (.dict fields) = true := by
  have hmem := @Dict.mem_of_get fields key (by simp [hget])
  rw [hget] at hmem
  have hfields : Json.occursFields (.str text) fields = true := by
    clear hget
    induction fields with
    | nil => cases hmem
    | cons field rest ih =>
        rcases List.mem_cons.mp hmem with rfl | hmem
        · simp [Json.occursFields, Json.occurs_self]
        · simp [Json.occursFields, ih hmem]
  simp [Json.occurs, hfields]

/-! ## Rows which reads answer with -/

theorem mem_of_scalarOneOrNone
    {rows : List Resource} {row : Resource}
    (hfound : scalarOneOrNone rows = .ok (some row)) : row ∈ rows := by
  match rows with
  | [] => cases hfound
  | [only] =>
      cases hfound
      exact List.mem_singleton_self _
  | _ :: _ :: _ => cases hfound

theorem mem_of_findMemoryByPath
    {rows : List Resource} {workspaceId storeId key : String} {row : Resource}
    (hfound : findMemoryByPath rows workspaceId storeId key = .ok (some row)) :
    row ∈ rows :=
  List.mem_of_mem_filter (mem_of_scalarOneOrNone hfound)

theorem mem_of_listResources
    {rows : List Resource} {query : ResourceQuery} {limit : ℕ} {row : Resource}
    (hrow : row ∈ listResources rows query limit) : row ∈ rows :=
  List.mem_of_mem_filter (NewestPage.mem_of_mem_page hrow)

theorem mem_of_memoriesUnder
    {py : Interpreter} {rows found : List Resource} {workspaceId storeId under : String}
    (hfound : memoriesUnder py rows workspaceId storeId under = .ok found) :
    ∀ row ∈ found, row ∈ rows := by
  unfold memoriesUnder at hfound
  obtain ⟨normalized, -, hfound⟩ := bind_eq_ok.mp hfound
  split at hfound
  · cases hfound
    exact fun row hrow => mem_of_listResources hrow
  · cases hfound
    exact fun row hrow => List.mem_of_mem_filter (mem_of_listResources hrow)

theorem mem_of_keepUnder
    {py : Interpreter} {memories found : List Resource} {under : String}
    (hfound : keepUnder py memories under = .ok found) :
    ∀ row ∈ found, row ∈ memories := by
  unfold keepUnder at hfound
  obtain ⟨normalized, -, hfound⟩ := bind_eq_ok.mp hfound
  dsimp only at hfound
  split at hfound
  · cases hfound
    exact fun _ hrow => hrow
  · cases hfound
    exact fun _ hrow => List.mem_of_mem_filter hrow

theorem mem_of_listMemories
    {py : Interpreter} {workspaceId storeId : String} {view : View}
    {path pathPrefix viewName : Option String} {found : List Resource}
    (hfound : listMemories py workspaceId storeId path pathPrefix viewName view =
      .ok found) :
    ∀ row ∈ found, row ∈ view 1 := by
  unfold listMemories at hfound
  simp only [bind_eq_ok] at hfound
  obtain ⟨-, -, -, -, hfound⟩ := hfound
  split at hfound
  · cases hfound
    exact fun row hrow => mem_of_listResources hrow
  · exact mem_of_memoriesUnder hfound
  · simp only [bind_eq_ok] at hfound
    obtain ⟨normalized, -, memory, hmemory, hfound⟩ := hfound
    have hread : ∀ row ∈ memory.toList, row ∈ view 1 := by
      intro row hrow
      rw [Option.mem_toList] at hrow
      exact mem_of_findMemoryByPath (hrow ▸ hmemory)
    split at hfound
    · cases hfound
      exact hread
    · exact fun row hrow => hread row (mem_of_keepUnder hfound row hrow)

theorem mem_of_listMemoryVersions
    {py : Interpreter} {workspaceId storeId : String} {view : View}
    {filter : VersionFilter} {viewName : Option String} {found : List Resource}
    (hfound : listMemoryVersions py workspaceId storeId filter viewName view =
      .ok found) :
    ∀ row ∈ found, ∃ query, row ∈ view query := by
  unfold listMemoryVersions at hfound
  simp only [bind_eq_ok, pure_eq_ok] at hfound
  obtain ⟨-, -, -, -, -, -, rfl⟩ := hfound
  intro row hrow
  obtain ⟨memory, -, hlisted⟩ := List.mem_flatMap.mp (List.mem_of_mem_filter hrow)
  exact ⟨_, mem_of_listResources hlisted⟩

/-- A read answers with rows which one of its queries saw. -/
theorem MemoryRead.mem_of_find
    {py : Interpreter} {workspaceId : String} {view : View} {read : MemoryRead}
    {found : List Resource} (hfound : read.find py workspaceId view = .ok found) :
    ∀ row ∈ found, ∃ query, row ∈ view query := by
  cases read with
  | store storeId =>
      simp only [MemoryRead.find, retrieveMemoryStore, bind_eq_ok, pure_eq_ok] at hfound
      obtain ⟨store, hstore, rfl⟩ := hfound
      exact List.forall_mem_singleton.mpr ⟨0, (mustExist_found hstore).1⟩
  | memories storeId path pathPrefix viewName =>
      exact fun row hrow => ⟨1, mem_of_listMemories hfound row hrow⟩
  | memoryByPath storeId path viewName =>
      simp only [MemoryRead.find, retrieveMemoryByPath, bind_eq_ok, pure_eq_ok] at hfound
      obtain ⟨memory, ⟨-, -, -, -, normalized, -, entry, hentry, hmemory⟩, rfl⟩ := hfound
      cases entry with
      | none => cases hmemory
      | some row =>
          cases hmemory
          exact List.forall_mem_singleton.mpr ⟨1, mem_of_findMemoryByPath hentry⟩
  | memory storeId memoryId viewName =>
      simp only [MemoryRead.find, retrieveMemory, bind_eq_ok, pure_eq_ok] at hfound
      obtain ⟨memory, ⟨-, -, hmemory⟩, rfl⟩ := hfound
      exact List.forall_mem_singleton.mpr ⟨0, (mustExist_found hmemory).1⟩
  | versionsOfMemory storeId memoryId =>
      simp only [MemoryRead.find, listMemoryVersionsForMemory, bind_eq_ok, pure_eq_ok]
        at hfound
      obtain ⟨-, -, rfl⟩ := hfound
      exact fun row hrow => ⟨1, mem_of_listResources hrow⟩
  | versionOfMemory storeId memoryId version =>
      simp only [MemoryRead.find, retrieveMemoryVersionForMemory, bind_eq_ok, pure_eq_ok]
        at hfound
      obtain ⟨row, ⟨-, -, entry, hentry, hrow⟩, rfl⟩ := hfound
      cases entry with
      | none => cases hrow
      | some version =>
          cases hrow
          exact List.forall_mem_singleton.mpr
            ⟨1, List.mem_of_mem_filter (mem_of_scalarOneOrNone hentry)⟩
  | versions storeId filter viewName => exact mem_of_listMemoryVersions hfound
  | versionById storeId versionId viewName =>
      simp only [MemoryRead.find, retrieveMemoryVersion, bind_eq_ok, pure_eq_ok] at hfound
      obtain ⟨version, ⟨-, -, -, -, ⟨row, memory⟩, hversion, rfl⟩, rfl⟩ := hfound
      exact List.forall_mem_singleton.mpr ⟨1, (findMemoryVersion_found hversion).1.1⟩

/-! ## Redactions that went through -/

/-- The version as it was when its redaction was committed. -/
theorem redacted_version
    {py : Interpreter} {call : MemoryCall} {view : View} {current next : List Resource}
    {storeId versionId : String} (hseen : Seen view current)
    (hrequest : call.request = .redact storeId versionId)
    (haccepted : call.body py view current = some next) :
    ∃ before ∈ current, before.id = versionId ∧
      before.resourceType = .memoryVersion := by
  obtain ⟨outcome, houtcome, -, -⟩ := MemoryCall.body_eq_some.mp haccepted
  rw [MemoryCall.handle, hrequest] at houtcome
  simp only [redactMemoryVersion, bind_eq_ok] at houtcome
  obtain ⟨-, -, ⟨version, memory⟩, hfound, -⟩ := houtcome
  obtain ⟨⟨hversion, hid, htype⟩, -⟩ := findMemoryVersion_found hfound
  obtain ⟨later, hlater, hfollows⟩ := hseen.kept 1 version hversion
  exact ⟨later, hlater, hfollows.id.trans hid, hfollows.resourceType.trans htype⟩

/-- The row holds the content which the version had, and every response for it
shows the digest and the size that were stored beside it. -/
structure StillShown (py : Interpreter) (before version : Resource) : Prop where
  content : ∃ text, Dict.get before.data "content" = .str text ∧
    Json.occurs (.str text) (.dict version.data) = true
  digests : ∀ columns viewName response,
    memoryVersionResponse py columns viewName version = .ok response →
      ∀ key ∈ DIGEST_KEYS,
        (Dict.get response "snapshot").get key = Dict.get before.data key

theorem Follows.stillShown
    (py : Interpreter) {before version : Resource}
    (hbefore : SoundRow before) (hversion : SoundRow version)
    (htype : before.resourceType = .memoryVersion) (hfollows : Follows before version) :
    StillShown py before version := by
  have htypeVersion := hfollows.resourceType.trans htype
  have hsame := hfollows.operation htype
  constructor
  · obtain ⟨text, htext⟩ := (hbefore.version htype).content
    exact ⟨text, htext, Json.occurs_of_get ((hsame "content" (by decide)).trans htext)⟩
  · intro columns viewName response hresponse key hkey
    obtain ⟨snapshot, hsnapshot, hdigests⟩ := (hversion.version htypeVersion).snapshot
    rw [memoryVersionResponse_snapshot htypeVersion hresponse, hsnapshot]
    change Dict.get snapshot key = _
    have hapart : ∀ key ∈ DIGEST_KEYS, key ∉ ["snapshot", "redacted", "redacted_at"] := by
      decide
    rw [hdigests key hkey, hsame key (hapart key hkey)]

/-- The states committed after a state follow it. -/
theorem Timeline.Ordered.earlier_since
    {Invariant : List Resource → Prop} {world : MemoryWorld}
    {since past : List (List Resource)} {next : List Resource}
    (hordered : world.Ordered Invariant EarlierRows)
    (hhistory : world.history = since ++ next :: past) :
    ∀ rows ∈ since ++ [next], EarlierRows next rows := by
  have hpairs := hordered.order
  rw [hhistory, List.pairwise_append] at hpairs
  intro rows hrows
  rcases List.mem_append.mp hrows with hrows | hrows
  · exact hpairs.2.2 rows hrows next List.mem_cons_self
  · obtain rfl := List.mem_singleton.mp hrows
    exact EarlierRows.refl _

/-- Whatever follows an accepted redaction, every state committed since holds
the content of the version, and every read of them shows its digest and size. -/
theorem redacted_content_kept
    {py : Interpreter} {calls later : List (MemoryCall × List ℕ)}
    {world final : MemoryWorld} {call : MemoryCall} {ages : List ℕ}
    {next : List Resource} {storeId versionId : String}
    (hrun : run (memoryStep py) MemoryWorld.start calls = some world)
    (hrequest : call.request = .redact storeId versionId)
    (hages : Admissible world ages)
    (haccepted : call.body py (world.view ages) world.current = some next)
    (hlater : run (memoryStep py) { current := next, past := world.history } later =
      some final) :
    ∃ before ∈ world.current, before.id = versionId ∧
      ∃ since, final.history = since ++ world.history ∧
        (∀ rows ∈ since, ∃ version ∈ rows,
          version.id = versionId ∧ StillShown py before version) ∧
        ∀ view : View, (∀ query, view query ∈ since) → ∀ (read : MemoryRead) found,
          read.find py call.workspaceId view = .ok found →
            ∀ version ∈ found, version.id = versionId → StillShown py before version := by
  have hordered := memory_run_sound hrun
  have hseen := seen_of_ordered hordered hages
  have hstep : memoryStep py world (call, ages) =
      some { current := next, past := world.history } := by
    simp [memoryStep, ReadCommitted.step, hages, haccepted]
  have hnext := memory_run_sound_from hordered
    (run_cons_eq_some.mpr ⟨_, hstep, run_nil _⟩)
  have hfinal := memory_run_sound_from hnext hlater
  obtain ⟨more, hmore⟩ := run_history hlater
  obtain ⟨before, hbefore, hid, htype⟩ := redacted_version hseen hrequest haccepted
  have hcommitted := (MemoryCall.committed hseen haccepted).earlier hseen.rows
  have hbeforeSound := (hordered.states _ List.mem_cons_self).2 before hbefore
  have hsince := Timeline.Ordered.earlier_since hfinal hmore
  have hstates : ∀ rows ∈ more ++ [next], rows ∈ final.history := by
    intro rows hrows
    rw [hmore]
    simp only [List.mem_append, Timeline.history, List.mem_cons] at hrows ⊢
    tauto
  -- the row of the version in a later state
  have hfollows : ∀ rows ∈ more ++ [next], ∃ version ∈ rows,
      Follows before version ∧ StillShown py before version := by
    intro rows hrows
    obtain ⟨version, hversion, hfollow⟩ :=
      EarlierRows.trans _ _ _ hcommitted (hsince rows hrows) before hbefore
    refine ⟨version, hversion, hfollow, ?_⟩
    exact hfollow.stillShown py hbeforeSound
      ((hfinal.states rows (hstates rows hrows)).2 version hversion) htype
  refine ⟨before, hbefore, hid, more ++ [next], ?_, ?_, ?_⟩
  · rw [hmore]
    simp [Timeline.history]
  · intro rows hrows
    obtain ⟨version, hversion, hfollow, hshown⟩ := hfollows rows hrows
    exact ⟨version, hversion, hfollow.id.trans hid, hshown⟩
  · intro view hview read found hfound version hversion hsame
    obtain ⟨query, hmem⟩ := MemoryRead.mem_of_find hfound version hversion
    obtain ⟨kept, hkept, hfollow, hshown⟩ := hfollows _ (hview query)
    have hids := (hfinal.states _ (hstates _ (hview query))).1.ids
    obtain rfl := List.inj_on_of_nodup_map hids hmem hkept
      (hsame.trans (hfollow.id.trans hid).symm)
    exact hshown

/-! ## Two sample runs -/

def sampleRedact : MemoryCall :=
  sampleCall "d" (.redact "memstore_a0" "memver_b1")

/-- A memory with the given first content, which is rewritten. -/
def sampleRewritten (content : String) : List (MemoryCall × List ℕ) :=
  [sampleStore, sampleMemory "b" content [], sampleRewrite "c" "final" []]

def sampleRewrittenWorld (content : String) : MemoryWorld :=
  (run (memoryStep sampleInterpreter) MemoryWorld.start (sampleRewritten content)).getD
    MemoryWorld.start

theorem sampleRewritten_run
    {content : String}
    (hrun : (run (memoryStep sampleInterpreter) MemoryWorld.start
      (sampleRewritten content)).isSome = true) :
    run (memoryStep sampleInterpreter) MemoryWorld.start (sampleRewritten content) =
      some (sampleRewrittenWorld content) := by
  obtain ⟨world, hworld⟩ := Option.isSome_iff_exists.mp hrun
  rw [sampleRewrittenWorld, hworld, Option.getD_some]

/-- The rows once its first version is redacted. -/
def sampleRedactedRows (content : String) : List Resource :=
  (sampleRedact.body sampleInterpreter ((sampleRewrittenWorld content).view [])
    (sampleRewrittenWorld content).current).getD []

theorem sampleRedact_body
    {content : String}
    (hbody : (sampleRedact.body sampleInterpreter ((sampleRewrittenWorld content).view [])
      (sampleRewrittenWorld content).current).isSome = true) :
    sampleRedact.body sampleInterpreter ((sampleRewrittenWorld content).view [])
      (sampleRewrittenWorld content).current = some (sampleRedactedRows content) := by
  obtain ⟨rows, hrows⟩ := Option.isSome_iff_exists.mp hbody
  rw [sampleRedactedRows, hrows, Option.getD_some]

def sampleRedactedWorld (content : String) : MemoryWorld where
  current := sampleRedactedRows content
  past := (sampleRewrittenWorld content).history

theorem sample_redacted_content_kept :
    ∃ before ∈ (sampleRewrittenWorld "draft").current, before.id = "memver_b1" ∧
      ∃ since, (sampleRedactedWorld "draft").history =
          since ++ (sampleRewrittenWorld "draft").history ∧
        (∀ rows ∈ since, ∃ version ∈ rows,
          version.id = "memver_b1" ∧ StillShown sampleInterpreter before version) ∧
        ∀ view : View, (∀ query, view query ∈ since) → ∀ (read : MemoryRead) found,
          read.find sampleInterpreter "wrkspc_default" view = .ok found →
            ∀ version ∈ found, version.id = "memver_b1" →
              StillShown sampleInterpreter before version :=
  @redacted_content_kept sampleInterpreter (sampleRewritten "draft") []
    (sampleRewrittenWorld "draft") (sampleRedactedWorld "draft") sampleRedact []
    (sampleRedactedRows "draft") "memstore_a0" "memver_b1"
    (sampleRewritten_run (by decide +kernel)) rfl
    (by decide) (sampleRedact_body (by decide +kernel)) rfl

/-- What a client reads of the version in the rows. -/
def sampleVersionRead (rows : List Resource) : Option Dict :=
  ((MemoryRead.versionById "memstore_a0" "memver_b1" none).find sampleInterpreter
    "wrkspc_default" fun _ => rows).toOption.bind fun found =>
      found.head?.bind fun version =>
        (memoryVersionResponse sampleInterpreter { updatedAt := 0 } none version).toOption

/-- Two runs which differ in the content that is redacted. -/
theorem redacted_content_observable :
    (∀ content ∈ ["draft", "sketch"],
      (run (memoryStep sampleInterpreter) MemoryWorld.start
        (sampleRewritten content)).isSome = true ∧
      sampleRedact.body sampleInterpreter ((sampleRewrittenWorld content).view [])
          (sampleRewrittenWorld content).current = some (sampleRedactedRows content)) ∧
    (∃ version ∈ sampleRedactedRows "draft", version.id = "memver_b1" ∧
      Json.occurs (.str "draft") (.dict version.data) = true) ∧
    (sampleVersionRead (sampleRedactedRows "draft")).isSome = true ∧
    sampleVersionRead (sampleRedactedRows "draft") ≠
      sampleVersionRead (sampleRedactedRows "sketch") := by
  refine ⟨?_, by decide +kernel, by decide +kernel, by decide +kernel⟩
  have hruns : ∀ content ∈ ["draft", "sketch"],
      (run (memoryStep sampleInterpreter) MemoryWorld.start
        (sampleRewritten content)).isSome = true ∧
      (sampleRedact.body sampleInterpreter ((sampleRewrittenWorld content).view [])
        (sampleRewrittenWorld content).current).isSome = true := by
    decide +kernel
  exact fun content hcontent =>
    ⟨(hruns content hcontent).1, sampleRedact_body (hruns content hcontent).2⟩

end ManagedAgents
