import ManagedAgents.MemoryDigests

/-!
# What versions record

Every memory holds a text as its content, and every version row holds one too,
beside a snapshot with the same digest and size as the row.  Redaction takes
the content out of the snapshot alone, so this holds of redacted rows as well.
-/

namespace ManagedAgents

open Fallible LabelledRuns ReadCommitted

def HoldsText (data : Dict) : Prop :=
  ∃ text, Dict.get data "content" = .str text

/-- The dictionary of a version records a text, and its snapshot has the digest
and the size that stand beside it. -/
structure RecordsContent (data : Dict) : Prop where
  content : HoldsText data
  snapshot : ∃ snapshot, Dict.get data "snapshot" = .dict snapshot ∧
    ∀ key ∈ DIGEST_KEYS, Dict.get snapshot key = Dict.get data key

structure SoundRow (row : Resource) : Prop where
  memory : row.resourceType = .memory → HoldsText row.data
  version : row.resourceType = .memoryVersion → RecordsContent row.data

theorem SoundRow.of_memory
    {row : Resource} (htype : row.resourceType = .memory) (htext : HoldsText row.data) :
    SoundRow row where
  memory := fun _ => htext
  version := by simp [htype]

theorem SoundRow.of_version
    {row : Resource} (htype : row.resourceType = .memoryVersion)
    (hrecords : RecordsContent row.data) : SoundRow row where
  memory := by simp [htype]
  version := fun _ => hrecords

theorem SoundRow.of_store
    {row : Resource} (htype : row.resourceType = .memoryStore) : SoundRow row where
  memory := by simp [htype]
  version := by simp [htype]

/-! ## Statements -/

/-- A statement which leaves sound rows, if the rows that the request read are
still there. -/
inductive SoundStatement (read : Resource → Prop) : Statement → Prop
  | insert (row : Resource) (hrow : SoundRow row) : SoundStatement read (.insert row)
  | update (held : Resource) (columns : Columns) (hread : read held)
      (hdata : ∀ data ∈ columns.data, SoundRow { held with data := data }) :
      SoundStatement read (.update held.id columns)
  | touch (resourceId : String) (columns : Columns) (hdata : columns.data = none) :
      SoundStatement read (.update resourceId columns)

/-- The rows with the identifier of a row have its type, and there is one. -/
def StillThere (rows : List Resource) (held : Resource) : Prop :=
  (∃ row ∈ rows, row.id = held.id) ∧
    ∀ row ∈ rows, row.id = held.id → row.resourceType = held.resourceType

theorem SoundRow.write
    {row : Resource} {columns : Columns} (hrow : SoundRow row)
    (hdata : ∀ data ∈ columns.data, SoundRow { row with data := data }) :
    SoundRow (columns.write row) := by
  cases hcolumn : columns.data with
  | none =>
      exact ⟨by simpa [Columns.write, hcolumn] using hrow.memory,
        by simpa [Columns.write, hcolumn] using hrow.version⟩
  | some data =>
      have hwritten := hdata data hcolumn
      exact ⟨by simpa [Columns.write, hcolumn] using hwritten.memory,
        by simpa [Columns.write, hcolumn] using hwritten.version⟩

theorem StillThere.updateRow
    {rows : List Resource} {held : Resource} (hheld : StillThere rows held)
    (resourceId : String) (columns : Columns) :
    StillThere (updateRow rows resourceId columns) held := by
  constructor
  · obtain ⟨row, hrow, hid⟩ := hheld.1
    refine ⟨_, List.mem_map_of_mem hrow, ?_⟩
    split
    · exact hid
    · exact hid
  · intro other hother hid
    obtain ⟨row, hrow, rfl⟩ := List.mem_map.mp hother
    split at hid <;> split <;> exact hheld.2 row hrow hid

theorem StillThere.append
    {rows : List Resource} {held added : Resource} (hheld : StillThere rows held)
    (hfree : ∀ other ∈ rows, conflicts added other = false) :
    StillThere (rows ++ [added]) held := by
  obtain ⟨⟨row, hrow, hid⟩, htypes⟩ := hheld
  refine ⟨⟨row, List.mem_append_left _ hrow, hid⟩, ?_⟩
  intro other hother hsame
  rcases List.mem_append.mp hother with hother | hother
  · exact htypes other hother hsame
  · obtain rfl := List.mem_singleton.mp hother
    exact absurd (hid.trans hsame.symm) (ne_id_of_conflicts (hfree row hrow))

theorem commit_sound
    {read : Resource → Prop} {rows next : List Resource} {statements : List Statement}
    (hread : ∀ held, read held → StillThere rows held)
    (hrows : ∀ row ∈ rows, SoundRow row)
    (hstatements : ∀ statement ∈ statements, SoundStatement read statement)
    (hcommit : commit rows statements = some next) : ∀ row ∈ next, SoundRow row := by
  induction statements generalizing rows with
  | nil =>
      rw [commit_nil, Option.some.injEq] at hcommit
      rwa [← hcommit]
  | cons statement rest ih =>
      have hrest := fun other hother => hstatements other (List.mem_cons_of_mem _ hother)
      cases hstatements statement List.mem_cons_self with
      | insert row hrow =>
          obtain ⟨hfree, hcommit⟩ := commit_insert.mp hcommit
          refine ih (fun held hheld => (hread held hheld).append hfree) ?_ hrest hcommit
          intro other hother
          rcases List.mem_append.mp hother with hother | hother
          · exact hrows other hother
          · rwa [List.mem_singleton.mp hother]
      | update held columns hheld hdata =>
          rw [commit_update] at hcommit
          refine ih (fun other hother => (hread other hother).updateRow _ _) ?_ hrest
            hcommit
          intro other hother
          obtain ⟨row, hrow, rfl⟩ := List.mem_map.mp hother
          split
          next hid =>
            have htype := (hread held hheld).2 row hrow hid
            refine (hrows row hrow).write fun data hcolumn => ?_
            have hsound := hdata data hcolumn
            exact ⟨fun h => hsound.memory (htype.symm.trans h),
              fun h => hsound.version (htype.symm.trans h)⟩
          next => exact hrows row hrow
      | touch resourceId columns hdata =>
          rw [commit_update] at hcommit
          refine ih (fun other hother => (hread other hother).updateRow _ _) ?_ hrest
            hcommit
          intro other hother
          obtain ⟨row, hrow, rfl⟩ := List.mem_map.mp hother
          split
          · refine (hrows row hrow).write fun data hcolumn => ?_
            rw [hdata] at hcolumn
            cases hcolumn
          · exact hrows row hrow

/-! ## Dictionaries -/

theorem memoryVersionData_records
    (memory : Resource) (version : ℤ) (actor operation : String) {data : Dict}
    (htext : HoldsText data) :
    RecordsContent (memoryVersionData memory version actor operation data) := by
  obtain ⟨text, hcontent⟩ := htext
  refine ⟨⟨text, ?_⟩, memorySnapshot data, (memoryVersionData_get ..).2.2.1, ?_⟩
  · rw [memoryVersionData_content _ _ _ _ _ (by simp), hcontent]
  · intro key hkey
    have hcontentKey : key ∈ ["content", "content_sha256", "content_size_bytes"] :=
      List.mem_cons_of_mem _ hkey
    have hne : key ≠ "path_key" := by
      rintro rfl
      revert hkey
      decide
    rw [memoryVersionData_content _ _ _ _ _ hcontentKey, memorySnapshot_get hne]

theorem DigestMatches.holdsText {data : Dict} (hmatches : DigestMatches data) :
    HoldsText data :=
  hmatches.content.imp fun _ hcontent => hcontent.1

theorem HoldsText.of_get
    {data other : Dict} (htext : HoldsText data)
    (hsame : Dict.get other "content" = Dict.get data "content") : HoldsText other :=
  htext.imp fun _ hcontent => hsame.trans hcontent

theorem MergedData.holdsText
    {py : Interpreter} {existing update data : Dict}
    (hmerged : MergedData py existing update data) (htext : HoldsText existing) :
    HoldsText data := by
  cases hcontent : Dict.contains update "content" with
  | true => exact (hmerged.newContent hcontent).holdsText
  | false => exact htext.of_get (hmerged.sameContent hcontent)

theorem deletedMemoryData_holdsText
    {py : Interpreter} {now : Time} {existing data : Dict}
    (hdata : deletedMemoryData py now existing = .ok data) (htext : HoldsText existing) :
    HoldsText data := by
  unfold deletedMemoryData at hdata
  simp only [bind_eq_ok, pure_eq_ok] at hdata
  obtain ⟨number, -, rfl⟩ := hdata
  exact htext.of_get (by simp)

theorem redactedVersionData_records
    {py : Interpreter} {now : Time} {existing data : Dict}
    (hdata : redactedVersionData py now existing = .ok data)
    (hrecords : RecordsContent existing) : RecordsContent data := by
  obtain ⟨snapshot, hsnapshot, hdigests⟩ := hrecords.snapshot
  refine ⟨hrecords.content.of_get (redactedVersionData_get hdata (by decide)), ?_⟩
  have hkept : ∀ key ∈ DIGEST_KEYS, Dict.get data key = Dict.get existing key := by
    intro key hkey
    apply redactedVersionData_get hdata
    revert key
    decide
  unfold redactedVersionData at hdata
  simp only [hsnapshot, bind_eq_ok, pure_eq_ok] at hdata
  obtain ⟨held, hheld, rfl⟩ := hdata
  refine ⟨Dict.set (Dict.pop held "content") "redacted" (.bool true), by simp, ?_⟩
  intro key hkey
  have hsame : Dict.get held key = Dict.get snapshot key := by
    unfold toDict at hheld
    split at hheld
    · cases hheld
      rfl
    next hempty =>
      cases hheld
      cases snapshot with
      | nil => rfl
      | cons field rest => simp [Json.truthy] at hempty
  have hapart : ∀ key ∈ DIGEST_KEYS, "redacted" ≠ key ∧ "content" ≠ key := by decide
  obtain ⟨hredacted, hcontent⟩ := hapart key hkey
  rw [Dict.get_set_other _ hredacted, Dict.get_pop_other hcontent, hsame,
    hdigests key hkey, hkept key hkey]

/-! ## Requests -/

/-- The row was read by one of the queries. -/
def ReadBy (view : View) (row : Resource) : Prop :=
  ∃ query, row ∈ view query

theorem createMemoryVersion_sound
    {supply : Supply} {draw reading : ℕ} {workspaceId : String} {memory : Resource}
    {version : ℤ} {actor operation : String} {data : Option Dict}
    (htext : HoldsText memory.data) (hgiven : ∀ given ∈ data, HoldsText given) :
    SoundRow (createMemoryVersion supply draw reading workspaceId memory version actor
      operation data) := by
  refine SoundRow.of_version rfl (memoryVersionData_records _ _ _ _ ?_)
  cases hfiltered : data.filter (· ≠ []) with
  | none => exact htext
  | some given => exact hgiven given (Option.filter_eq_some_iff.mp hfiltered).1

section

variable {py : Interpreter} {supply : Supply} {view : View}
  {workspaceId storeId : String} {outcome : Outcome}

theorem createMemory_sound
    {body : MemoryCreateRequest} {viewName : Option String}
    (houtcome : createMemory py supply workspaceId storeId body viewName view =
      .ok outcome) :
    ∀ statement ∈ outcome.statements, SoundStatement (ReadBy view) statement := by
  unfold createMemory at houtcome
  simp only [bind_eq_ok, pure_eq_ok] at houtcome
  obtain ⟨-, -, -, -, -, -, data, hdata, key, -, -, -, -, -, rfl⟩ := houtcome
  have htext := (memoryPayload_created hdata).digest.holdsText
  simp only [insertMemory, updateResource, Dict.equal_self, if_true, List.forall_mem_cons,
    List.not_mem_nil, false_implies, implies_true, and_true]
  refine ⟨.insert _ (.of_memory rfl htext), ?_, .touch _ _ rfl⟩
  exact .insert _ (createMemoryVersion_sound htext (by simp))

theorem updateMemory_sound
    {memoryId : String} {body : MemoryUpdateRequest} {viewName : Option String}
    (hviews : ∀ query, ∀ row ∈ view query, SoundRow row)
    (houtcome : updateMemory py supply workspaceId storeId memoryId body viewName view =
      .ok outcome) :
    ∀ statement ∈ outcome.statements, SoundStatement (ReadBy view) statement := by
  unfold updateMemory at houtcome
  simp only [bind_eq_ok] at houtcome
  obtain ⟨-, -, memory, hexists, ⟨⟩, -, houtcome⟩ := houtcome
  obtain ⟨hmem, -, htype, -⟩ := mustExist_found hexists
  have htext := (hviews 0 memory hmem).memory htype
  split at houtcome
  · simp only [answerStaleContent, bind_eq_ok, pure_eq_ok] at houtcome
    obtain ⟨-, -, -, -, rfl⟩ := houtcome
    simp
  · obtain ⟨data, hdata, houtcome⟩ := bind_eq_ok.mp houtcome
    have hnext := (mergeMemoryData_merged hdata).holdsText htext
    split at houtcome
    · simp only [writeMemory, bind_eq_ok, pure_eq_ok] at houtcome
      obtain ⟨⟨⟩, -, key, -, number, -, rfl⟩ := houtcome
      simp only [updateResource, Dict.equal_self, if_true, List.forall_mem_cons,
        List.not_mem_nil, false_implies, implies_true, and_true]
      refine ⟨?_, .insert _ (createMemoryVersion_sound hnext (by simp)), .touch _ _ rfl⟩
      refine .update memory _ ⟨0, hmem⟩ fun given hgiven => ?_
      split at hgiven
      · cases hgiven
      · cases hgiven
        exact .of_memory htype hnext
    · rw [pure_eq_ok] at houtcome
      subst houtcome
      simp

theorem deleteMemory_sound
    {memoryId : String} {expected : Option String}
    (hviews : ∀ query, ∀ row ∈ view query, SoundRow row)
    (houtcome : deleteMemory py supply workspaceId storeId memoryId expected view =
      .ok outcome) :
    ∀ statement ∈ outcome.statements, SoundStatement (ReadBy view) statement := by
  unfold deleteMemory at houtcome
  simp only [bind_eq_ok] at houtcome
  obtain ⟨-, -, memory, hexists, ⟨⟩, -, data, hdata, hwrite⟩ := houtcome
  obtain ⟨hmem, -, htype, -⟩ := mustExist_found hexists
  have htext := (hviews 1 memory hmem).memory htype
  have hnext := deletedMemoryData_holdsText hdata htext
  simp only [removeMemory, bind_eq_ok, pure_eq_ok] at hwrite
  obtain ⟨number, -, rfl⟩ := hwrite
  simp only [updateResource, deleteResource, List.forall_mem_cons, List.not_mem_nil,
    false_implies, implies_true, and_true]
  refine ⟨.insert _ (createMemoryVersion_sound htext ?_), ?_, .touch _ _ rfl⟩
  · rintro given ⟨⟩
    exact hnext
  · refine .update memory _ ⟨1, hmem⟩ fun given hgiven => ?_
    split at hgiven
    · cases hgiven
    · cases hgiven
      exact .of_memory htype (hnext.of_get (Dict.get_set_other _ (by decide)))

theorem redactMemoryVersion_sound
    {current : List Resource} {versionId : String} (hseen : Seen view current)
    (hviews : ∀ query, ∀ row ∈ view query, SoundRow row)
    (houtcome : redactMemoryVersion py supply workspaceId storeId versionId view =
      .ok outcome) :
    ∀ statement ∈ outcome.statements, SoundStatement (ReadBy view) statement := by
  unfold redactMemoryVersion at houtcome
  simp only [bind_eq_ok, pure_eq_ok, raiseIf_eq_ok, Bool.not_eq_true] at houtcome
  obtain ⟨-, -, ⟨version, memory⟩, hfound, live, hlive, ⟨⟩, rfl, data, hdata, rfl⟩ :=
    houtcome
  obtain ⟨⟨hversion, -, hversionType⟩, -⟩ := findMemoryVersion_found hfound
  have hrecords := redactedVersionData_records hdata
    ((hviews 1 version hversion).version hversionType)
  simp only [redactRows, updateResource, hseen.memory_not_emptied hfound hlive hdata,
    if_false, List.forall_mem_singleton]
  refine .update version _ ⟨1, hversion⟩ fun given hgiven => ?_
  split at hgiven
  · cases hgiven
  · cases hgiven
    exact .of_version hversionType hrecords

/-- The write of a store that was read. -/
theorem storeWrite_sound
    {query : ℕ} {store : Resource} (columns : Columns)
    (hstore : mustExist (view query) workspaceId storeId .memoryStore none = .ok store) :
    SoundStatement (ReadBy view) (.update store.id columns) := by
  obtain ⟨hmem, -, htype, -⟩ := mustExist_found hstore
  exact .update store columns ⟨query, hmem⟩ fun _ _ => .of_store htype

end

theorem MemoryCall.sound
    {py : Interpreter} {call : MemoryCall} {view : View} {current : List Resource}
    {outcome : Outcome} (hseen : Seen view current)
    (hviews : ∀ query, ∀ row ∈ view query, SoundRow row)
    (houtcome : call.handle py view = .ok outcome) :
    ∀ statement ∈ outcome.statements, SoundStatement (ReadBy view) statement := by
  unfold MemoryCall.handle at houtcome
  split at houtcome
  · simp only [createMemoryStore, bind_eq_ok, pure_eq_ok] at houtcome
    obtain ⟨-, -, -, -, rfl⟩ := houtcome
    exact List.forall_mem_singleton.mpr (.insert _ (.of_store rfl))
  · simp only [updateMemoryStore, bind_eq_ok, pure_eq_ok] at houtcome
    obtain ⟨store, hstore, -, -, -, -, -, -, rfl⟩ := houtcome
    exact List.forall_mem_singleton.mpr (storeWrite_sound _ hstore)
  · simp only [archiveMemoryStore, bind_eq_ok, pure_eq_ok] at houtcome
    obtain ⟨store, hstore, rfl⟩ := houtcome
    exact List.forall_mem_singleton.mpr (storeWrite_sound _ hstore)
  · simp only [deleteMemoryStore, bind_eq_ok, pure_eq_ok] at houtcome
    obtain ⟨store, hstore, rfl⟩ := houtcome
    exact List.forall_mem_singleton.mpr (storeWrite_sound _ hstore)
  · exact createMemory_sound houtcome
  · exact updateMemory_sound hviews houtcome
  · exact deleteMemory_sound hviews houtcome
  · exact redactMemoryVersion_sound hseen hviews houtcome

/-! ## Runs -/

def SoundRows (rows : List Resource) : Prop :=
  ∀ row ∈ rows, SoundRow row

theorem Seen.stillThere
    {view : View} {current : List Resource} (hseen : Seen view current) {held : Resource}
    (hheld : ReadBy view held) : StillThere current held := by
  obtain ⟨query, hmem⟩ := hheld
  obtain ⟨later, hlater, hfollows⟩ := hseen.kept query held hmem
  refine ⟨⟨later, hlater, hfollows.id⟩, fun row hrow hid => ?_⟩
  obtain rfl := List.inj_on_of_nodup_map hseen.rows.ids hrow hlater
    (hid.trans hfollows.id.symm)
  exact hfollows.resourceType

theorem memory_run_sound_from
    {py : Interpreter} {calls : List (MemoryCall × List ℕ)} {first last : MemoryWorld}
    (hfirst : first.Ordered (fun rows => MemoryRows rows ∧ SoundRows rows) EarlierRows)
    (hrun : run (memoryStep py) first calls = some last) :
    last.Ordered (fun rows => MemoryRows rows ∧ SoundRows rows) EarlierRows := by
  refine run_ordered EarlierRows.refl EarlierRows.trans ?_ hfirst (allSteps_true _ _) hrun
  intro world call ages next _ hviews hlater hkept hcurrent hbody
  have hseen : Seen (world.view ages) world.current :=
    ⟨fun query => (hviews query).1, hlater, hkept, hcurrent.1⟩
  have hcommitted := MemoryCall.committed hseen hbody
  obtain ⟨outcome, houtcome, -, hcommit⟩ := MemoryCall.body_eq_some.mp hbody
  refine ⟨⟨hcommitted.rows hcurrent.1, ?_⟩, hcommitted.earlier hcurrent.1⟩
  exact commit_sound (fun held hheld => hseen.stillThere hheld) hcurrent.2
    (MemoryCall.sound hseen (fun query => (hviews query).2) houtcome) hcommit

theorem memory_run_sound
    {py : Interpreter} {calls : List (MemoryCall × List ℕ)} {last : MemoryWorld}
    (hrun : run (memoryStep py) MemoryWorld.start calls = some last) :
    last.Ordered (fun rows => MemoryRows rows ∧ SoundRows rows) EarlierRows := by
  refine memory_run_sound_from ⟨?_, ?_⟩ hrun
  · intro rows hrows
    obtain rfl : rows = [] := by simpa [Timeline.history, MemoryWorld.start] using hrows
    exact ⟨MemoryRows.start, by simp [SoundRows]⟩
  · simp [Timeline.history, MemoryWorld.start]

end ManagedAgents
