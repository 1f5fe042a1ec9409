import ManagedAgents.Skills

/-!
# Latest versions of skills

A skill names the number of its latest version.  The pointer is written with a new
version and is not written when a version is deleted.
-/

namespace ManagedAgents

open Fallible LabelledRuns ReadCommitted

/-! ## Numbers -/

/-- A live version of the skill has the number. -/
def HasVersion (rows : List Resource) (workspaceId skillId : String)
    (number : ℤ) : Prop :=
  ∃ version ∈ rows, (skillVersionQuery workspaceId skillId).selects version = true ∧
    version.version = some number

/-- A live skill names the number as its latest. -/
def NamesLatest (rows : List Resource) (workspaceId skillId : String) (latest : Json) :
    Prop :=
  ∃ skill ∈ rows, skill.id = skillId ∧ (skillQuery workspaceId).selects skill = true ∧
    Dict.get skill.data "latest_version" = latest

/-- The latest version of every live skill is found and no other is larger. -/
def LatestVersionsExist (rows : List Resource) : Prop :=
  ∀ workspaceId skillId latest, NamesLatest rows workspaceId skillId latest →
    latest ≠ .null →
    ∃ number, latest = .int number ∧
      (∃ version, getResourceVersion rows (skillVersionQuery workspaceId skillId) number =
        .ok (some version)) ∧
      ∀ other, HasVersion rows workspaceId skillId other → other ≤ number

theorem selects_skill
    {workspaceId : String} {row : Resource} :
    (skillQuery workspaceId).selects row = true ↔
      row.resourceType = .skill ∧ row.workspaceId = workspaceId ∧
        row.deletedAt = none := by
  simp [ResourceQuery.selects, skillQuery]

theorem selects_skillVersion
    {workspaceId skillId : String} {row : Resource} :
    (skillVersionQuery workspaceId skillId).selects row = true ↔
      row.resourceType = .skillVersion ∧ row.workspaceId = workspaceId ∧
        row.deletedAt = none ∧ row.parentId = some skillId := by
  simp [ResourceQuery.selects, skillVersionQuery]

/-! ## Rows -/

/-- Identifiers and numbers are unique, a version has a skill, and a skill names a
number as its latest. -/
structure SkillRows (rows : List Resource) : Prop where
  ids : (rows.map ManagedResource.id).Nodup
  unique : ∀ first ∈ rows, ∀ second ∈ rows, first.resourceType = .skillVersion →
    second.resourceType = .skillVersion → first.parentId = second.parentId →
    first.version = second.version → first = second
  parents : ∀ version ∈ rows, version.resourceType = .skillVersion →
    ∃ skill ∈ rows, version.parentId = some skill.id
  latest : ∀ skill ∈ rows, skill.resourceType = .skill →
    ∃ number, Dict.get skill.data "latest_version" = .int number

/-- An update keeps the rows of skills unless it writes another latest version. -/
theorem SkillRows.updateRow
    {rows : List Resource} {resourceId : String} {columns : Columns}
    (hrows : SkillRows rows)
    (hdata : ∀ data ∈ columns.data,
      ∃ number, Dict.get data "latest_version" = .int number) :
    SkillRows (updateRow rows resourceId columns) := by
  have hold : ∀ row ∈ ManagedAgents.updateRow rows resourceId columns,
      ∃ old ∈ rows, SameRow old row ∧
        (row = old ∨ row = columns.write old) := by
    intro row hrow
    rcases mem_updateRow.mp hrow with ⟨hrow, -⟩ | ⟨old, hold, -, rfl⟩
    · exact ⟨row, hrow, SameRow.refl row, .inl rfl⟩
    · exact ⟨old, hold, SameRow.write columns old, .inr rfl⟩
  have hids : (ManagedAgents.updateRow rows resourceId columns).map ManagedResource.id =
      rows.map ManagedResource.id := by
    unfold ManagedAgents.updateRow
    rw [List.map_map]
    refine List.map_congr_left fun row _ => ?_
    by_cases hid : row.id = resourceId <;> simp [hid, Columns.write]
  constructor
  · rw [hids]
    exact hrows.ids
  · intro first hfirst second hsecond htype htype' hparent hversion
    obtain ⟨old, hmem, hsame, -⟩ := hold first hfirst
    obtain ⟨old', hmem', hsame', -⟩ := hold second hsecond
    have heq := hrows.unique old hmem old' hmem'
      (hsame.resourceType.symm.trans htype) (hsame'.resourceType.symm.trans htype')
      (hsame.parentId.symm.trans (hparent.trans hsame'.parentId))
      (hsame.version.symm.trans (hversion.trans hsame'.version))
    subst heq
    exact List.inj_on_of_nodup_map (hids ▸ hrows.ids) hfirst hsecond
      (hsame.id.trans hsame'.id.symm)
  · intro version hversion htype
    obtain ⟨old, hmem, hsame, -⟩ := hold version hversion
    obtain ⟨skill, hskill, hparent⟩ :=
      hrows.parents old hmem (hsame.resourceType.symm.trans htype)
    obtain ⟨later, hlater, hkept⟩ :=
      RowsKept.updateRow rows resourceId columns skill hskill
    exact ⟨later, hlater, by rw [hsame.parentId, hparent, hkept.id]⟩
  · intro skill hskill htype
    obtain ⟨old, hmem, hsame, hcases⟩ := hold skill hskill
    have hlatest := hrows.latest old hmem (hsame.resourceType.symm.trans htype)
    rcases hcases with rfl | rfl
    · exact hlatest
    · cases hcolumns : columns.data with
      | none => simpa [Columns.write, hcolumns] using hlatest
      | some data => simpa [Columns.write, hcolumns] using hdata data hcolumns

theorem scalarOneOrNone_eq_some
    {rows : List Resource} {row : Resource} :
    scalarOneOrNone rows = .ok (some row) ↔ rows = [row] := by
  rcases rows with - | ⟨first, - | ⟨second, rest⟩⟩ <;> simp [scalarOneOrNone]

/-- A number that exists is found, as no two versions have it. -/
theorem SkillRows.found_iff
    {rows : List Resource} {workspaceId skillId : String} {number : ℤ}
    (hrows : SkillRows rows) :
    (∃ version, getResourceVersion rows (skillVersionQuery workspaceId skillId) number =
      .ok (some version)) ↔ HasVersion rows workspaceId skillId number := by
  unfold getResourceVersion
  simp only [scalarOneOrNone_eq_some]
  constructor
  · rintro ⟨version, hversion⟩
    have hmem : version ∈ rows.filter fun row =>
        (skillVersionQuery workspaceId skillId).selects row ∧
          row.version = some number := by
      rw [hversion]
      exact List.mem_singleton_self _
    obtain ⟨hmem, hselected⟩ := List.mem_filter.mp hmem
    simp only [decide_eq_true_eq] at hselected
    exact ⟨version, hmem, hselected⟩
  · rintro ⟨version, hmem, hselects, hnumber⟩
    refine ⟨version, ?_⟩
    have hnodup := (hrows.ids.of_map _).filter fun row =>
      decide ((skillVersionQuery workspaceId skillId).selects row ∧
        row.version = some number)
    refine List.perm_singleton.mp ((List.perm_ext_iff_of_nodup hnodup
      (List.nodup_singleton version)).mpr ?_)
    intro other
    simp only [List.mem_filter, decide_eq_true_eq, List.mem_singleton]
    constructor
    · rintro ⟨hother, hotherSelects, hotherNumber⟩
      obtain ⟨htype, -, -, hparent⟩ := selects_skillVersion.mp hselects
      obtain ⟨hotherType, -, -, hotherParent⟩ := selects_skillVersion.mp hotherSelects
      exact hrows.unique other hother version hmem hotherType htype
        (hotherParent.trans hparent.symm) (hotherNumber.trans hnumber.symm)
    · rintro rfl
      exact ⟨hmem, hselects, hnumber⟩

/-- The pointers in terms of numbers. -/
def NumbersLatest (rows : List Resource) : Prop :=
  ∀ workspaceId skillId number,
    NamesLatest rows workspaceId skillId (.int number) →
    HasVersion rows workspaceId skillId number ∧
      ∀ other, HasVersion rows workspaceId skillId other → other ≤ number

theorem SkillRows.latestVersionsExist_iff
    {rows : List Resource} (hrows : SkillRows rows) :
    LatestVersionsExist rows ↔ NumbersLatest rows := by
  unfold LatestVersionsExist NumbersLatest
  constructor
  · intro hexist workspaceId skillId number hnames
    obtain ⟨same, hsame, hfound, hlargest⟩ :=
      hexist workspaceId skillId (.int number) hnames (by simp)
    cases hsame
    exact ⟨hrows.found_iff.mp hfound, hlargest⟩
  · intro hexist workspaceId skillId latest hnames _
    obtain ⟨skill, hskill, hid, hselects, hlatest⟩ := hnames
    obtain ⟨number, hnumber⟩ :=
      hrows.latest skill hskill (selects_skill.mp hselects).1
    obtain rfl : latest = .int number := hlatest.symm.trans hnumber
    obtain ⟨hversion, hlargest⟩ := hexist workspaceId skillId number
      ⟨skill, hskill, hid, hselects, hlatest⟩
    exact ⟨number, rfl, hrows.found_iff.mpr hversion, hlargest⟩

/-! ## Pointers and versions after writes -/

theorem namesLatest_append
    {rows : List Resource} {row : Resource} {workspaceId skillId : String}
    {latest : Json} :
    NamesLatest (rows ++ [row]) workspaceId skillId latest ↔
      NamesLatest rows workspaceId skillId latest ∨
        row.id = skillId ∧ (skillQuery workspaceId).selects row = true ∧
          Dict.get row.data "latest_version" = latest := by
  simp [NamesLatest, or_and_right, exists_or]

theorem hasVersion_append
    {rows : List Resource} {row : Resource} {workspaceId skillId : String} {number : ℤ} :
    HasVersion (rows ++ [row]) workspaceId skillId number ↔
      HasVersion rows workspaceId skillId number ∨
        (skillVersionQuery workspaceId skillId).selects row = true ∧
          row.version = some number := by
  simp [HasVersion, or_and_right, exists_or]

theorem namesLatest_updateRow
    {rows : List Resource} {resourceId : String} {columns : Columns}
    {workspaceId skillId : String} {latest : Json} :
    NamesLatest (updateRow rows resourceId columns) workspaceId skillId latest ↔
      skillId ≠ resourceId ∧ NamesLatest rows workspaceId skillId latest ∨
        ∃ old ∈ rows, old.id = resourceId ∧ skillId = resourceId ∧
          (skillQuery workspaceId).selects (columns.write old) = true ∧
          Dict.get (columns.write old).data "latest_version" = latest := by
  constructor
  · rintro ⟨skill, hskill, hid, hselects, hlatest⟩
    rcases mem_updateRow.mp hskill with ⟨hskill, hother⟩ | ⟨old, hold, hsame, rfl⟩
    · exact .inl ⟨hid ▸ hother, skill, hskill, hid, hselects, hlatest⟩
    · exact .inr ⟨old, hold, hsame, hid.symm.trans hsame, hselects, hlatest⟩
  · rintro (⟨hother, skill, hskill, hid, hselects, hlatest⟩ |
      ⟨old, hold, hsame, hid, hselects, hlatest⟩)
    · exact ⟨skill, mem_updateRow.mpr (.inl ⟨hskill, hid ▸ hother⟩), hid, hselects,
        hlatest⟩
    · exact ⟨columns.write old, mem_updateRow.mpr (.inr ⟨old, hold, hsame, rfl⟩),
        hsame.trans hid.symm, hselects, hlatest⟩

/-- Only the row of a version can change which versions there are. -/
theorem hasVersion_updateRow
    {rows : List Resource} {resourceId : String} {columns : Columns}
    (hother : ∀ row ∈ rows, row.id = resourceId → row.resourceType ≠ .skillVersion)
    {workspaceId skillId : String} {number : ℤ} :
    HasVersion (updateRow rows resourceId columns) workspaceId skillId number ↔
      HasVersion rows workspaceId skillId number := by
  constructor
  · rintro ⟨version, hversion, hselects, hnumber⟩
    rcases mem_updateRow.mp hversion with ⟨hversion, -⟩ | ⟨old, hold, hid, rfl⟩
    · exact ⟨version, hversion, hselects, hnumber⟩
    · exact absurd (selects_skillVersion.mp hselects).1 (hother old hold hid)
  · rintro ⟨version, hversion, hselects, hnumber⟩
    refine ⟨version, mem_updateRow.mpr (.inl ⟨hversion, ?_⟩), hselects, hnumber⟩
    exact fun hid => hother version hversion hid (selects_skillVersion.mp hselects).1

theorem SkillRows.namesLatest_iff
    {rows : List Resource} {workspaceId skillId : String} {latest : Json}
    (hrows : SkillRows rows) :
    NamesLatest rows workspaceId skillId latest ↔
      ∃ skill, getResource rows skillId (skillQuery workspaceId) = some skill ∧
        Dict.get skill.data "latest_version" = latest := by
  constructor
  · rintro ⟨skill, hskill, hid, hselects, hlatest⟩
    refine ⟨skill, ?_, hlatest⟩
    obtain ⟨found, hfound⟩ :
        ∃ found, getResource rows skillId (skillQuery workspaceId) = some found := by
      rw [← Option.isSome_iff_exists, getResource, List.find?_isSome]
      exact ⟨skill, hskill, by simp [hid, hselects]⟩
    obtain ⟨hmem, hfoundId, -⟩ := getResource_eq_some hfound
    rw [hfound, List.inj_on_of_nodup_map hrows.ids hmem hskill (hfoundId.trans hid.symm)]
  · rintro ⟨skill, hskill, hlatest⟩
    obtain ⟨hmem, hid, hselects⟩ := getResource_eq_some hskill
    exact ⟨skill, hmem, hid, hselects, hlatest⟩

/-! ## What a request commits -/

/-- A new version needs that no live version of the live skill has a larger number,
and the version that goes must not be the latest. -/
def KeepsLatest (py : Python) (call : SkillCall) (view : View)
    (current : List Resource) : Prop :=
  match call.request with
  | .createVersion skillId _ =>
      ∀ skill ∈ getResource (view 0) skillId (skillQuery call.context.workspaceId),
      ∀ number ∈ (newSkillVersionId py call.context.timeNs
          (Dict.get skill.data "latest_version")).toOption,
      (getResource current skillId (skillQuery call.context.workspaceId)).isSome →
      ∀ other ∈ current,
        (skillVersionQuery call.context.workspaceId skillId).selects other = true →
        ∀ taken ∈ other.version, taken ≤ number
  | .deleteVersion skillId version =>
      ∀ skill ∈ getResource current skillId (skillQuery call.context.workspaceId),
        Dict.get skill.data "latest_version" ≠ .int version
  | .create _ | .delete _ => True

/-- The kinds of commits. -/
inductive SkillCommit (py : Python) (call : SkillCall) (view : View)
    (current : List Resource) : List Resource → Prop
  | created (body : Except HTTPException SkillPayload) (skill version : Resource)
      (number : ℤ) (hrequest : call.request = .create body)
      (hfresh : ∀ other ∈ current, conflicts skill other = false)
      (hversionFresh : ∀ other ∈ current ++ [skill], conflicts version other = false)
      (hskill : (skillQuery call.context.workspaceId).selects skill = true)
      (hversion : (skillVersionQuery call.context.workspaceId skill.id).selects version =
        true)
      (hlatest : Dict.get skill.data "latest_version" = .int number)
      (hnumber : version.version = some number) :
      SkillCommit py call view current (current ++ [skill] ++ [version])
  | versionCreated (skillId : String) (body : Except HTTPException SkillPayload)
      (skill version : Resource) (number : ℤ)
      (hrequest : call.request = .createVersion skillId body)
      (hread : getResource (view 0) skillId (skillQuery call.context.workspaceId) =
        some skill)
      (hnew : newSkillVersionId py call.context.timeNs
        (Dict.get skill.data "latest_version") = .ok number)
      (hfresh : ∀ other ∈ current, conflicts version other = false)
      (hversion : (skillVersionQuery call.context.workspaceId skillId).selects version =
        true)
      (hnumber : version.version = some number) :
      SkillCommit py call view current
        (updateRow (current ++ [version]) skillId
          { data := some (Dict.set skill.data "latest_version" (.int number)) })
  | deleted (skillId : String) (skill : Resource) (columns : Columns)
      (hrequest : call.request = .delete skillId)
      (hread : getResource (view 0) skillId (skillQuery call.context.workspaceId) =
        some skill)
      (hdata : columns.data = none) (hdeleted : columns.deletedAt ≠ none) :
      SkillCommit py call view current (updateRow current skillId columns)
  | versionDeleted (skillId : String) (number : ℤ) (version : Resource)
      (columns : Columns) (hrequest : call.request = .deleteVersion skillId number)
      (hread : version ∈ view 0)
      (hversion : (skillVersionQuery call.context.workspaceId skillId).selects version =
        true)
      (hnumber : version.version = some number)
      (hdata : columns.data = none) (hdeleted : columns.deletedAt ≠ none) :
      SkillCommit py call view current (updateRow current version.id columns)

theorem newSkillVersionId_int
    (py : Python) (timeNs previous : ℤ) :
    newSkillVersionId py timeNs (.int previous) =
      .ok (max (timeNs / 1000) (previous + 1)) := by
  unfold newSkillVersionId
  by_cases hzero : previous = 0 <;> simp [Json.or, Json.truthy, Python.int, hzero]

theorem createSkillVersionResource_eq_ok
    {context : SkillContext} {draw : ℕ} {skillId : String} {number : ℤ}
    {payload : SkillPayload} {version : Resource}
    (hversion : createSkillVersionResource context draw skillId number payload =
      .ok version) :
    (skillVersionQuery context.workspaceId skillId).selects version = true ∧
      version.version = some number := by
  unfold createSkillVersionResource at hversion
  simp only [bind_eq_ok, pure_eq_ok] at hversion
  obtain ⟨-, -, -, -, -, -, rfl⟩ := hversion
  exact ⟨selects_skillVersion.mpr ⟨rfl, rfl, rfl, rfl⟩, rfl⟩

theorem findSkill_eq_ok
    {workspaceId skillId : String} {view : View} {skill : Resource} :
    findSkill workspaceId skillId view = .ok skill ↔
      getResource (view 0) skillId (skillQuery workspaceId) = some skill := by
  unfold findSkill
  split
  next found hfound => rw [hfound, Except.ok.injEq, Option.some.injEq]
  next hnone => simp [hnone]

theorem createSkill_committed
    {py : Python} {call : SkillCall} {view : View} {current next : List Resource}
    {body : Except HTTPException SkillPayload} {outcome : Outcome}
    (hrequest : call.request = .create body)
    (houtcome : createSkill py call.context body = .ok outcome)
    (hcommit : commit current outcome.statements = some next) :
    SkillCommit py call view current next := by
  unfold createSkill at houtcome
  simp only [bind_eq_ok, pure_eq_ok] at houtcome
  obtain ⟨payload, -, number, -, name, -, version, hversion, rfl⟩ := houtcome
  simp only [commit_insert, commit_nil, Option.some.injEq] at hcommit
  obtain ⟨hfresh, hversionFresh, rfl⟩ := hcommit
  obtain ⟨hselects, hnumber⟩ := createSkillVersionResource_eq_ok hversion
  exact .created body _ version number hrequest hfresh hversionFresh
    (selects_skill.mpr ⟨rfl, rfl, rfl⟩) hselects rfl hnumber

theorem createSkillVersion_committed
    {py : Python} {call : SkillCall} {view : View} {current next : List Resource}
    {skillId : String} {body : Except HTTPException SkillPayload} {outcome : Outcome}
    (hrows : SkillRows (view 0)) (hrequest : call.request = .createVersion skillId body)
    (houtcome : createSkillVersion py call.context skillId body view = .ok outcome)
    (hcommit : commit current outcome.statements = some next) :
    SkillCommit py call view current next := by
  unfold createSkillVersion at houtcome
  simp only [bind_eq_ok, pure_eq_ok, findSkill_eq_ok] at houtcome
  obtain ⟨skill, hread, payload, -, number, hnew, version, hversion, rfl⟩ := houtcome
  obtain ⟨hmem, hid, hselects⟩ := getResource_eq_some hread
  obtain ⟨previous, hprevious⟩ := hrows.latest skill hmem (selects_skill.mp hselects).1
  have hlater : number ≠ previous := by
    rw [hprevious, newSkillVersionId_int, Except.ok.injEq] at hnew
    omega
  have hchanged : Dict.equal (Dict.set skill.data "latest_version" (.int number))
      skill.data = false :=
    Dict.equal_of_int_ne (Dict.get_set_same ..) hprevious hlater
  obtain ⟨hversionSelects, hnumber⟩ := createSkillVersionResource_eq_ok hversion
  simp only [updateResource, hchanged, Bool.false_eq_true, if_false, ite_self,
    commit_insert, commit_update, commit_nil, Option.some.injEq] at hcommit
  obtain ⟨hfresh, rfl⟩ := hcommit
  rw [hid] at hversionSelects ⊢
  exact .versionCreated skillId body skill version number hrequest hread hnew hfresh
    hversionSelects hnumber

theorem deleteSkill_committed
    {py : Python} {call : SkillCall} {view : View} {current next : List Resource}
    {skillId : String} {outcome : Outcome} (hrequest : call.request = .delete skillId)
    (houtcome : deleteSkill call.context skillId view = .ok outcome)
    (hcommit : commit current outcome.statements = some next) :
    SkillCommit py call view current next := by
  unfold deleteSkill at houtcome
  simp only [bind_eq_ok, pure_eq_ok, findSkill_eq_ok] at houtcome
  obtain ⟨skill, hread, rfl⟩ := houtcome
  obtain ⟨-, hid, -⟩ := getResource_eq_some hread
  simp only [deleteResource, commit_update, commit_nil, Option.some.injEq, hid] at hcommit
  obtain rfl := hcommit
  exact .deleted skillId skill _ hrequest hread rfl (by simp)

theorem deleteSkillVersion_committed
    {py : Python} {call : SkillCall} {view : View} {current next : List Resource}
    {skillId : String} {number : ℤ} {outcome : Outcome}
    (hrequest : call.request = .deleteVersion skillId number)
    (houtcome : deleteSkillVersion call.context.supply call.context.workspaceId skillId
      number view = .ok outcome)
    (hcommit : commit current outcome.statements = some next) :
    SkillCommit py call view current next := by
  unfold deleteSkillVersion findSkillVersion at houtcome
  simp only [bind_eq_ok, pure_eq_ok] at houtcome
  obtain ⟨version, ⟨found, hfound, hsome⟩, rfl⟩ := houtcome
  cases found with
  | none => cases hsome
  | some row =>
      rw [pure_eq_ok] at hsome
      obtain rfl : row = version := hsome
      have hmem : row ∈ (view 0).filter fun row =>
          (skillVersionQuery call.context.workspaceId skillId).selects row ∧
            row.version = some number := by
        rw [scalarOneOrNone_eq_some.mp hfound]
        exact List.mem_singleton_self _
      obtain ⟨hread, hselected⟩ := List.mem_filter.mp hmem
      simp only [decide_eq_true_eq] at hselected
      simp only [deleteResource, commit_update, commit_nil, Option.some.injEq] at hcommit
      obtain rfl := hcommit
      exact .versionDeleted skillId number row _ hrequest hread hselected.1
        hselected.2 rfl (by simp)

theorem SkillCall.committed
    {py : Python} {call : SkillCall} {view : View} {current next : List Resource}
    (hrows : SkillRows (view 0)) (hbody : call.body py view current = some next) :
    SkillCommit py call view current next := by
  obtain ⟨outcome, houtcome, hcommit⟩ := SkillCall.body_eq_some.mp hbody
  unfold SkillCall.handle at houtcome
  cases hrequest : call.request <;> simp only [hrequest] at houtcome
  case create body => exact createSkill_committed hrequest houtcome hcommit
  case createVersion skillId body =>
    exact createSkillVersion_committed hrows hrequest houtcome hcommit
  case delete skillId => exact deleteSkill_committed hrequest houtcome hcommit
  case deleteVersion skillId number =>
    exact deleteSkillVersion_committed hrequest houtcome hcommit

/-! ## What a commit keeps -/

theorem SkillRows.append
    {rows : List Resource} {row : Resource} (hrows : SkillRows rows)
    (hfresh : ∀ other ∈ rows, conflicts row other = false)
    (hversion : row.resourceType = .skillVersion → row.version ≠ none ∧
      ∃ skill ∈ rows, row.parentId = some skill.id)
    (hskill : row.resourceType = .skill →
      ∃ number, Dict.get row.data "latest_version" = .int number) :
    SkillRows (rows ++ [row]) := by
  have hdistinct : ∀ other ∈ rows, row.resourceType = .skillVersion →
      other.resourceType = .skillVersion → other.parentId = row.parentId →
      other.version ≠ row.version := by
    intro other hother htype hotherType hparent hsame
    obtain ⟨hnumber, skill, -, hskillParent⟩ := hversion htype
    have hfree := hfresh other hother
    simp [conflicts, htype, hotherType, hparent, hsame, hnumber, hskillParent] at hfree
  constructor
  · rw [List.map_append, List.nodup_append]
    refine ⟨hrows.ids, List.nodup_singleton _, ?_⟩
    rintro id hid other hother rfl
    obtain ⟨old, hold, rfl⟩ := List.mem_map.mp hid
    rw [List.map_singleton, List.mem_singleton] at hother
    have hfree := hfresh old hold
    simp [conflicts, hother] at hfree
  · intro first hfirst second hsecond htype htype' hparent hsame
    rcases List.mem_append.mp hfirst with hold | hnew <;>
      rcases List.mem_append.mp hsecond with hold' | hnew'
    · exact hrows.unique first hold second hold' htype htype' hparent hsame
    · obtain rfl := List.mem_singleton.mp hnew'
      exact absurd hsame (hdistinct first hold htype' htype hparent)
    · obtain rfl := List.mem_singleton.mp hnew
      exact absurd hsame.symm (hdistinct second hold' htype htype' hparent.symm)
    · rw [List.mem_singleton.mp hnew, List.mem_singleton.mp hnew']
  · intro version hmem htype
    rcases List.mem_append.mp hmem with hmem | hmem
    · obtain ⟨skill, hskill, hparent⟩ := hrows.parents version hmem htype
      exact ⟨skill, List.mem_append_left _ hskill, hparent⟩
    · obtain rfl := List.mem_singleton.mp hmem
      obtain ⟨-, skill, hskill, hparent⟩ := hversion htype
      exact ⟨skill, List.mem_append_left _ hskill, hparent⟩
  · intro skill hmem htype
    rcases List.mem_append.mp hmem with hmem | hmem
    · exact hrows.latest skill hmem htype
    · obtain rfl := List.mem_singleton.mp hmem
      exact hskill htype

/-- The skill which a request has read is still there. -/
theorem skill_kept
    {older current : List Resource} {workspaceId skillId : String} {skill : Resource}
    (hkept : RowsKept older current)
    (hread : getResource older skillId (skillQuery workspaceId) = some skill) :
    ∃ later ∈ current, later.id = skillId ∧ later.resourceType = .skill ∧
      later.workspaceId = workspaceId := by
  obtain ⟨hmem, hid, hselects⟩ := getResource_eq_some hread
  obtain ⟨htype, hworkspace, -⟩ := selects_skill.mp hselects
  obtain ⟨later, hlater, hsame⟩ := hkept skill hmem
  exact ⟨later, hlater, hsame.id.trans hid, hsame.resourceType.trans htype,
    hsame.workspaceId.trans hworkspace⟩

theorem SkillCommit.rows
    {py : Python} {call : SkillCall} {view : View} {current next : List Resource}
    (hrows : SkillRows current) (hkept : RowsKept (view 0) current)
    (hcommitted : SkillCommit py call view current next) :
    SkillRows next ∧ RowsKept current next := by
  cases hcommitted with
  | created body skill version number hrequest hfresh hversionFresh hskill hversion
      hlatest hnumber =>
      have hskillType := (selects_skill.mp hskill).1
      obtain ⟨htype, -, -, hparent⟩ := selects_skillVersion.mp hversion
      have hmiddle : SkillRows (current ++ [skill]) := by
        refine hrows.append hfresh ?_ fun _ => ⟨number, hlatest⟩
        simp [hskillType]
      refine ⟨hmiddle.append hversionFresh ?_ ?_, ?_⟩
      · exact fun _ => ⟨by simp [hnumber], skill, by simp, hparent⟩
      · simp [htype]
      · exact RowsKept.trans _ _ _ (RowsKept.append _ _) (RowsKept.append _ _)
  | versionCreated skillId body skill version number hrequest hread hnew hfresh hversion
      hnumber =>
      obtain ⟨htype, -, -, hparent⟩ := selects_skillVersion.mp hversion
      obtain ⟨later, hlater, hid, -, -⟩ := skill_kept hkept hread
      have hmiddle : SkillRows (current ++ [version]) := by
        refine hrows.append hfresh (fun _ => ⟨by simp [hnumber], later, hlater, ?_⟩) ?_
        · rw [hparent, hid]
        · simp [htype]
      refine ⟨hmiddle.updateRow ?_, ?_⟩
      · simp
      · exact RowsKept.trans _ _ _ (RowsKept.append _ _) (RowsKept.updateRow _ _ _)
  | deleted skillId skill columns hrequest hread hdata hdeleted =>
      exact ⟨hrows.updateRow (by simp [hdata]), RowsKept.updateRow _ _ _⟩
  | versionDeleted skillId number version columns hrequest hread hversion hnumber hdata
      hdeleted =>
      exact ⟨hrows.updateRow (by simp [hdata]), RowsKept.updateRow _ _ _⟩

/-! ## When a commit keeps the pointers -/

theorem created_numbersLatest
    {current : List Resource} {workspaceId : String} {skill version : Resource}
    {number : ℤ} (hrows : SkillRows current) (hlatest : NumbersLatest current)
    (hfresh : ∀ other ∈ current, conflicts skill other = false)
    (hskill : (skillQuery workspaceId).selects skill = true)
    (hversion : (skillVersionQuery workspaceId skill.id).selects version = true)
    (hnames : Dict.get skill.data "latest_version" = .int number)
    (hnumber : version.version = some number) :
    NumbersLatest (current ++ [skill] ++ [version]) := by
  obtain ⟨hskillType, hworkspace, -⟩ := selects_skill.mp hskill
  obtain ⟨htype, hversionWorkspace, -, hparent⟩ := selects_skillVersion.mp hversion
  have hnone : ∀ workspaceId other, ¬HasVersion current workspaceId skill.id other := by
    rintro workspaceId other ⟨old, hold, hselects, -⟩
    obtain ⟨holdType, -, -, holdParent⟩ := selects_skillVersion.mp hselects
    obtain ⟨parent, hparentMem, hid⟩ := hrows.parents old hold holdType
    have hfree := hfresh parent hparentMem
    rw [holdParent, Option.some.injEq] at hid
    simp [conflicts, hid] at hfree
  have hversions : ∀ workspaceId' skillId other,
      HasVersion (current ++ [skill] ++ [version]) workspaceId' skillId other ↔
        HasVersion current workspaceId' skillId other ∨
          workspaceId' = workspaceId ∧ skillId = skill.id ∧ other = number := by
    intro workspaceId' skillId other
    rw [hasVersion_append, hasVersion_append, selects_skillVersion, selects_skillVersion,
      hparent, hnumber, hversionWorkspace]
    simp only [hskillType, reduceCtorEq, false_and, or_false, htype, true_and,
      Option.some.injEq]
    have hlive := (selects_skillVersion.mp hversion).2.2.1
    simp only [hlive, true_and]
    tauto
  intro workspaceId' skillId named hnamed
  rw [namesLatest_append, namesLatest_append] at hnamed
  rcases hnamed with (hold | ⟨rfl, hselects, hnamed⟩) | ⟨-, hselects, -⟩
  · obtain ⟨hexists, hlargest⟩ := hlatest workspaceId' skillId named hold
    have hother : skillId ≠ skill.id := by
      rintro rfl
      exact hnone _ _ hexists
    refine ⟨(hversions ..).mpr (.inl hexists), fun other hhas => ?_⟩
    rcases (hversions ..).mp hhas with hhas | ⟨-, hsame, -⟩
    · exact hlargest other hhas
    · exact absurd hsame hother
  · obtain rfl := Json.int.inj (hnamed.symm.trans hnames)
    have hsame : workspaceId' = workspaceId :=
      (selects_skill.mp hselects).2.1.symm.trans hworkspace
    refine ⟨(hversions ..).mpr (.inr ⟨hsame, rfl, rfl⟩), fun other hhas => ?_⟩
    rcases (hversions ..).mp hhas with hhas | ⟨-, -, rfl⟩
    · exact absurd hhas (hnone _ _)
    · exact le_rfl
  · rw [selects_skill, htype] at hselects
    simp at hselects

theorem not_version_of_skill
    {rows : List Resource} {skill : Resource} (hids : (rows.map ManagedResource.id).Nodup)
    (hskill : skill ∈ rows) (htype : skill.resourceType = .skill) :
    ∀ row ∈ rows, row.id = skill.id → row.resourceType ≠ .skillVersion := by
  intro row hrow hid
  obtain rfl := List.inj_on_of_nodup_map hids hrow hskill hid
  simp [htype]

theorem versionCreated_numbersLatest_iff
    {current : List Resource} {workspaceId : String} {later version : Resource}
    {number : ℤ} {data : Dict}
    (hrows : SkillRows (current ++ [version])) (hlatest : NumbersLatest current)
    (hlater : later ∈ current) (hlaterType : later.resourceType = .skill)
    (hworkspace : later.workspaceId = workspaceId)
    (hversion : (skillVersionQuery workspaceId later.id).selects version = true)
    (hnumber : version.version = some number)
    (hdata : Dict.get data "latest_version" = .int number) :
    NumbersLatest (updateRow (current ++ [version]) later.id { data := some data }) ↔
      (later.deletedAt = none →
        ∀ other, HasVersion current workspaceId later.id other → other ≤ number) := by
  obtain ⟨htype, hversionWorkspace, hlive, hparent⟩ := selects_skillVersion.mp hversion
  have hversions : ∀ workspaceId' skillId other,
      HasVersion (updateRow (current ++ [version]) later.id { data := some data })
          workspaceId' skillId other ↔
        HasVersion current workspaceId' skillId other ∨
          workspaceId' = workspaceId ∧ skillId = later.id ∧ other = number := by
    intro workspaceId' skillId other
    rw [hasVersion_updateRow
      (not_version_of_skill hrows.ids (List.mem_append_left _ hlater)
      hlaterType), hasVersion_append, selects_skillVersion, hparent, hnumber,
      hversionWorkspace, htype, hlive, Option.some.injEq, Option.some.injEq]
    tauto
  have hnames : ∀ workspaceId' skillId named,
      NamesLatest (updateRow (current ++ [version]) later.id { data := some data })
          workspaceId' skillId named ↔
        skillId ≠ later.id ∧ NamesLatest current workspaceId' skillId named ∨
          skillId = later.id ∧ workspaceId' = workspaceId ∧ later.deletedAt = none ∧
            named = .int number := by
    intro workspaceId' skillId named
    rw [namesLatest_updateRow, namesLatest_append]
    have hnot : (skillQuery workspaceId').selects version = false := by
      rw [Bool.eq_false_iff, ne_eq, selects_skill, htype]
      simp
    simp only [hnot, Bool.false_eq_true, false_and, and_false, or_false]
    refine or_congr_right ⟨?_, ?_⟩
    · rintro ⟨old, hold, hid, rfl, hselects, rfl⟩
      obtain rfl := List.inj_on_of_nodup_map hrows.ids hold
        (List.mem_append_left _ hlater) hid
      obtain ⟨-, hsame, hdeleted⟩ := selects_skill.mp hselects
      refine ⟨rfl, hsame.symm.trans hworkspace, ?_, hdata⟩
      simpa [Columns.write] using hdeleted
    · rintro ⟨rfl, rfl, hdeleted, rfl⟩
      refine ⟨later, List.mem_append_left _ hlater, rfl, rfl, ?_, hdata⟩
      exact selects_skill.mpr ⟨hlaterType, hworkspace, by simp [Columns.write, hdeleted]⟩
  constructor
  · intro hnext hdeleted other hhas
    have hnamed := (hnames workspaceId later.id (.int number)).mpr
      (.inr ⟨rfl, rfl, hdeleted, rfl⟩)
    exact (hnext _ _ _ hnamed).2 other ((hversions ..).mpr (.inl hhas))
  · intro hlargest workspaceId' skillId named hnamed
    rcases (hnames ..).mp hnamed with ⟨hother, hnamed⟩ | ⟨rfl, rfl, hdeleted, hsame⟩
    · obtain ⟨hexists, hlargest⟩ := hlatest _ _ _ hnamed
      refine ⟨(hversions ..).mpr (.inl hexists), fun other hhas => ?_⟩
      rcases (hversions ..).mp hhas with hhas | ⟨-, hsame, -⟩
      · exact hlargest other hhas
      · exact absurd hsame hother
    · obtain rfl := Json.int.inj hsame
      refine ⟨(hversions ..).mpr (.inr ⟨rfl, rfl, rfl⟩), fun other hhas => ?_⟩
      rcases (hversions ..).mp hhas with hhas | ⟨-, -, rfl⟩
      · exact hlargest hdeleted other hhas
      · exact le_rfl

theorem write_not_live
    {columns : Columns} {row : Resource} (hdeleted : columns.deletedAt ≠ none) :
    (columns.write row).deletedAt ≠ none := by
  obtain ⟨now, hnow⟩ := Option.ne_none_iff_exists'.mp hdeleted
  simp [Columns.write, hnow]

theorem deleted_numbersLatest
    {current : List Resource} {later : Resource} {columns : Columns}
    (hrows : SkillRows current) (hlatest : NumbersLatest current)
    (hlater : later ∈ current) (hlaterType : later.resourceType = .skill)
    (hdeleted : columns.deletedAt ≠ none) :
    NumbersLatest (updateRow current later.id columns) := by
  intro workspaceId skillId number hnamed
  simp only [hasVersion_updateRow (not_version_of_skill hrows.ids hlater hlaterType)]
  rcases namesLatest_updateRow.mp hnamed with ⟨-, hnamed⟩ | ⟨old, -, -, -, hselects, -⟩
  · exact hlatest _ _ _ hnamed
  · exact absurd (selects_skill.mp hselects).2.2 (write_not_live hdeleted)

theorem versionDeleted_numbersLatest_iff
    {current : List Resource} {workspaceId skillId : String} {later : Resource}
    {number : ℤ} {columns : Columns}
    (hrows : SkillRows current) (hlatest : NumbersLatest current)
    (hlater : later ∈ current) (htype : later.resourceType = .skillVersion)
    (hworkspace : later.workspaceId = workspaceId)
    (hparent : later.parentId = some skillId) (hnumber : later.version = some number)
    (hdeleted : columns.deletedAt ≠ none) :
    NumbersLatest (updateRow current later.id columns) ↔
      ¬NamesLatest current workspaceId skillId (.int number) := by
  have hnames : ∀ workspaceId' skillId' named,
      NamesLatest (updateRow current later.id columns) workspaceId' skillId' named ↔
        NamesLatest current workspaceId' skillId' named := by
    intro workspaceId' skillId' named
    rw [namesLatest_updateRow]
    constructor
    · rintro (⟨-, hnamed⟩ | ⟨old, -, -, -, hselects, -⟩)
      · exact hnamed
      · exact absurd (selects_skill.mp hselects).2.2 (write_not_live hdeleted)
    · rintro ⟨skill, hskill, hid, hselects, hnamed⟩
      refine .inl ⟨?_, skill, hskill, hid, hselects, hnamed⟩
      rintro rfl
      obtain rfl := List.inj_on_of_nodup_map hrows.ids hskill hlater hid
      rw [selects_skill, htype] at hselects
      simp at hselects
  have hversions : ∀ workspaceId' skillId' other,
      HasVersion (updateRow current later.id columns) workspaceId' skillId' other ↔
        HasVersion current workspaceId' skillId' other ∧
          ¬(workspaceId' = workspaceId ∧ skillId' = skillId ∧ other = number) := by
    intro workspaceId' skillId' other
    constructor
    · rintro ⟨version, hversion, hselects, hother⟩
      rcases mem_updateRow.mp hversion with ⟨hversion, hid⟩ | ⟨old, -, -, rfl⟩
      · refine ⟨⟨version, hversion, hselects, hother⟩, ?_⟩
        rintro ⟨rfl, rfl, rfl⟩
        obtain ⟨hversionType, -, -, hversionParent⟩ := selects_skillVersion.mp hselects
        exact hid (congrArg ManagedResource.id (hrows.unique version hversion later hlater
          hversionType htype (hversionParent.trans hparent.symm)
          (hother.trans hnumber.symm)))
      · exact absurd (selects_skillVersion.mp hselects).2.2.1 (write_not_live hdeleted)
    · rintro ⟨⟨version, hversion, hselects, hother⟩, hkept⟩
      refine ⟨version, mem_updateRow.mpr (.inl ⟨hversion, fun hid => hkept ?_⟩), hselects,
        hother⟩
      obtain rfl := List.inj_on_of_nodup_map hrows.ids hversion hlater hid
      obtain ⟨-, hversionWorkspace, -, hversionParent⟩ := selects_skillVersion.mp hselects
      exact ⟨hversionWorkspace.symm.trans hworkspace,
        Option.some.inj (hversionParent.symm.trans hparent),
        Option.some.inj (hother.symm.trans hnumber)⟩
  constructor
  · intro hnext hnamed
    obtain ⟨hexists, -⟩ := hnext _ _ _ ((hnames ..).mpr hnamed)
    exact ((hversions ..).mp hexists).2 ⟨rfl, rfl, rfl⟩
  · intro hother workspaceId' skillId' named hnamed
    have hold := (hnames ..).mp hnamed
    obtain ⟨hexists, hlargest⟩ := hlatest _ _ _ hold
    refine ⟨(hversions ..).mpr ⟨hexists, ?_⟩, fun other hhas => ?_⟩
    · rintro ⟨rfl, rfl, rfl⟩
      exact hother hold
    · exact hlargest other ((hversions ..).mp hhas).1

/-! ## Runs -/

theorem SkillCommit.keeps_iff
    {py : Python} {call : SkillCall} {view : View} {current next : List Resource}
    (hrows : SkillRows current) (hkept : RowsKept (view 0) current)
    (hlatest : NumbersLatest current)
    (hcommitted : SkillCommit py call view current next) :
    NumbersLatest next ↔ KeepsLatest py call view current := by
  cases hcommitted with
  | created body skill version number hrequest hfresh hversionFresh hskill hversion
      hnames hnumber =>
      simp only [KeepsLatest, hrequest, iff_true]
      exact created_numbersLatest hrows hlatest hfresh hskill hversion hnames hnumber
  | versionCreated skillId body skill version number hrequest hread hnew hfresh hversion
      hnumber =>
      obtain ⟨later, hlater, rfl, htype, hworkspace⟩ := skill_kept hkept hread
      have hmiddle : SkillRows (current ++ [version]) := by
        obtain ⟨hversionType, -, -, hparent⟩ := selects_skillVersion.mp hversion
        refine hrows.append hfresh
          (fun _ => ⟨by simp [hnumber], later, hlater, hparent⟩) ?_
        simp [hversionType]
      rw [versionCreated_numbersLatest_iff hmiddle hlatest hlater htype hworkspace hversion
        hnumber (Dict.get_set_same ..)]
      simp only [KeepsLatest, hrequest, hread, hnew, Option.mem_some_iff, forall_eq',
        Except.toOption]
      refine imp_congr ?_ ?_
      · rw [getResource, List.find?_isSome]
        constructor
        · intro hlive
          exact ⟨later, hlater,
            by simpa using selects_skill.mpr ⟨htype, hworkspace, hlive⟩⟩
        · rintro ⟨found, hfound, hselected⟩
          simp only [decide_eq_true_eq] at hselected
          obtain rfl := List.inj_on_of_nodup_map hrows.ids hfound hlater hselected.1
          exact (selects_skill.mp hselected.2).2.2
      · constructor
        · intro hlargest other hother hselects taken htaken
          exact hlargest taken ⟨other, hother, hselects, htaken⟩
        · rintro hlargest other ⟨row, hrow, hselects, hother⟩
          exact hlargest row hrow hselects other hother
  | deleted skillId skill columns hrequest hread hdata hdeleted =>
      obtain ⟨later, hlater, rfl, htype, -⟩ := skill_kept hkept hread
      simp only [KeepsLatest, hrequest, iff_true]
      exact deleted_numbersLatest hrows hlatest hlater htype hdeleted
  | versionDeleted skillId number version columns hrequest hread hversion hnumber hdata
      hdeleted =>
      obtain ⟨later, hlater, hsame⟩ := hkept version hread
      obtain ⟨htype, hworkspace, -, hparent⟩ := selects_skillVersion.mp hversion
      rw [← hsame.id, versionDeleted_numbersLatest_iff hrows hlatest hlater
        (hsame.resourceType.trans htype) (hsame.workspaceId.trans hworkspace)
        (hsame.parentId.trans hparent) (hsame.version.trans hnumber) hdeleted,
        hrows.namesLatest_iff]
      simp [KeepsLatest, hrequest]

theorem skillRows_nil : SkillRows [] where
  ids := List.nodup_nil
  unique := by simp
  parents := by simp
  latest := by simp

/-- In all states of a run the latest versions exist, exactly if no new version is
overtaken by a larger number and no latest version is deleted. -/
theorem latest_versions_exist_iff
    {py : Python} {last : SkillWorld} {calls : List (SkillCall × List ℕ)}
    (hrun : run (skillStep py) SkillWorld.start calls = some last) :
    (∀ state ∈ last.history, LatestVersionsExist state) ↔
      AllSteps (skillStep py) (OnCommit (SkillCall.body py) (KeepsLatest py))
        SkillWorld.start calls := by
  have hstart : SkillWorld.start.Ordered SkillRows RowsKept := by
    constructor <;> simp [SkillWorld.start, Timeline.history, skillRows_nil]
  have hiff : (∀ state ∈ last.history, LatestVersionsExist state) ↔
      (∀ state ∈ SkillWorld.start.history, LatestVersionsExist state) ∧
        AllSteps (skillStep py) (OnCommit (SkillCall.body py) (KeepsLatest py))
          SkillWorld.start calls := by
    refine run_iff RowsKept.refl RowsKept.trans ?_ ?_ hstart hrun
    · intro call view current next hreads hbody
      exact (SkillCall.committed (hreads.views 0) hbody).rows hreads.invariant
        (hreads.kept 0)
    · intro call view current next hreads _ hlatest hbody
      have hcommitted := SkillCall.committed (hreads.views 0) hbody
      have hrows := (hcommitted.rows hreads.invariant (hreads.kept 0)).1
      rw [hrows.latestVersionsExist_iff]
      exact hcommitted.keeps_iff hreads.invariant (hreads.kept 0)
        (hreads.invariant.latestVersionsExist_iff.mp hlatest)
  rw [hiff]
  refine and_iff_right ?_
  intro state hstate
  obtain rfl : state = [] := by simpa [SkillWorld.start, Timeline.history] using hstate
  rintro workspaceId skillId latest ⟨skill, hskill, -⟩
  cases hskill

def sampleSkillCall (tag : String) (request : SkillRequest) : SkillCall where
  context :=
    { workspaceId := "ws"
      supply := { uuidHex := fun draw => tag ++ toString draw, clock := fun _ => 0 }
      timeNs := 7000
      maxSkillArchiveBytes := 0
      objectStorage := true }
  request := request

def samplePayload : Except HTTPException SkillPayload :=
  .ok { data := [("name", .str "research")], content := [1] }

/-- The only version of a skill is deleted. -/
def onlyVersionDeleted : List (SkillCall × List ℕ) :=
  [(sampleSkillCall "a" (.create samplePayload), []),
   (sampleSkillCall "b" (.deleteVersion "skill_a0" 7), [])]

/-- A version is added and the one before it deleted. -/
def olderVersionDeleted : List (SkillCall × List ℕ) :=
  [(sampleSkillCall "a" (.create samplePayload), []),
   (sampleSkillCall "b" (.createVersion "skill_a0" samplePayload), []),
   (sampleSkillCall "c" (.deleteVersion "skill_a0" 7), [])]

def afterOnlyVersionDeleted : SkillWorld :=
  (run (skillStep samplePython) SkillWorld.start onlyVersionDeleted).get
    (by decide)

def afterOlderVersionDeleted : SkillWorld :=
  (run (skillStep samplePython) SkillWorld.start olderVersionDeleted).get
    (by decide)

theorem deleted_latest_named :
    ¬ ∀ (py : Python) (last : SkillWorld) (calls : List (SkillCall × List ℕ)),
      run (skillStep py) SkillWorld.start calls = some last →
      ∀ state ∈ last.history, LatestVersionsExist state := by
  intro hclaim
  have hexist := hclaim samplePython afterOnlyVersionDeleted onlyVersionDeleted
    (Option.some_get _).symm _ List.mem_cons_self
  have hnames : ∃ skill ∈ afterOnlyVersionDeleted.current, skill.id = "skill_a0" ∧
      (skillQuery "ws").selects skill = true ∧
      Dict.get skill.data "latest_version" = .int 7 := by decide
  obtain ⟨number, hnumber, ⟨version, hfound⟩, -⟩ :=
    hexist "ws" "skill_a0" (.int 7) hnames (by simp)
  cases hnumber
  have hmissing : (getResourceVersion afterOnlyVersionDeleted.current
      (skillVersionQuery "ws" "skill_a0") 7).toOption = some none := by decide
  rw [hfound] at hmissing
  cases hmissing

theorem older_version_deleted_latest :
    run (skillStep samplePython) SkillWorld.start olderVersionDeleted =
        some afterOlderVersionDeleted ∧
      ((∀ state ∈ afterOlderVersionDeleted.history, LatestVersionsExist state) ↔
        AllSteps (skillStep samplePython)
          (OnCommit (SkillCall.body samplePython) (KeepsLatest samplePython))
          SkillWorld.start olderVersionDeleted) :=
  ⟨(Option.some_get _).symm, latest_versions_exist_iff (Option.some_get _).symm⟩

end ManagedAgents
