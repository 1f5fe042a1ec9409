import ManagedAgents.LatestVersions

/-!
# Numbers of skill versions

A version is numbered by the clock in microseconds or follows the number before it.
The numbers of a skill grow, but the column which stores them holds 32 bits.
-/

namespace ManagedAgents

open Fallible LabelledRuns ReadCommitted

/-! ## Numbers of a skill -/

def numberFor (skillId : String) (row : Resource) : Option ℤ :=
  if row.resourceType = .skillVersion ∧ row.parentId = some skillId then row.version
  else none

/-- The numbers that were given to the versions of a skill, deleted ones included. -/
def numbersGiven (rows : List Resource) (skillId : String) : List ℤ :=
  rows.filterMap (numberFor skillId)

/-- What a column of the type `Integer` holds. -/
def FitsInteger (number : ℤ) : Prop :=
  -2 ^ 31 ≤ number ∧ number < 2 ^ 31

/-- The numbers of a skill never repeat and can be stored. -/
structure UsableNumbers (rows : List Resource) (skillId : String) : Prop where
  increasing : (numbersGiven rows skillId).Pairwise (· < ·)
  stored : ∀ number ∈ numbersGiven rows skillId, FitsInteger number

section

variable {rows current next : List Resource} {skillId : String} {row : Resource}
  {number : ℤ}

theorem numberFor_eq_some :
    numberFor skillId row = some number ↔
      row.resourceType = .skillVersion ∧ row.parentId = some skillId ∧
        row.version = some number := by
  unfold numberFor
  split
  next hversion => simp [hversion]
  next hversion =>
    refine iff_of_false (by simp) ?_
    rintro ⟨htype, hparent, -⟩
    exact hversion ⟨htype, hparent⟩

theorem mem_numbersGiven :
    number ∈ numbersGiven rows skillId ↔
      ∃ version ∈ rows, version.resourceType = .skillVersion ∧
        version.parentId = some skillId ∧ version.version = some number := by
  simp [numbersGiven, List.mem_filterMap, numberFor_eq_some]

theorem numbersGiven_append (rows : List Resource) (row : Resource) (skillId : String) :
    numbersGiven (rows ++ [row]) skillId =
      numbersGiven rows skillId ++ (numberFor skillId row).toList := by
  unfold numbersGiven
  rw [List.filterMap_append]
  cases hnumber : numberFor skillId row <;> simp [hnumber]

/-- An update leaves the numbers alone. -/
theorem numbersGiven_updateRow
    (rows : List Resource) (resourceId : String) (columns : Columns) (skillId : String) :
    numbersGiven (updateRow rows resourceId columns) skillId =
      numbersGiven rows skillId := by
  unfold numbersGiven updateRow
  rw [List.filterMap_map]
  refine List.filterMap_congr fun row _ => ?_
  by_cases hid : row.id = resourceId <;> simp [numberFor, Columns.write, hid]

theorem numberFor_of_skill
    (hskill : row.resourceType = .skill) : numberFor skillId row = none := by
  simp [numberFor, hskill]

theorem numberFor_of_selects
    {workspaceId parent : String}
    (hversion : (skillVersionQuery workspaceId parent).selects row = true)
    (hnumber : row.version = some number) :
    numberFor skillId row = if skillId = parent then some number else none := by
  obtain ⟨htype, -, -, hparent⟩ := selects_skillVersion.mp hversion
  simp [numberFor, htype, hparent, hnumber, eq_comm]

/-! ## Numbers and the clock -/

theorem candidate_le
    {py : Python} {timeNs : ℤ} {previous : Json}
    (hnumber : newSkillVersionId py timeNs previous = .ok number) :
    timeNs / 1000 ≤ number := by
  unfold newSkillVersionId at hnumber
  dsimp only at hnumber
  split at hnumber
  · cases hnumber
    exact le_max_left _ _
  · cases hnumber
  · cases hnumber
    exact le_max_left _ _
  · cases hnumber
    exact le_max_left _ _

theorem SameRow.trans
    {first second third : Resource} (hfirst : SameRow first second)
    (hsecond : SameRow second third) : SameRow first third :=
  ⟨hsecond.id.trans hfirst.id, hsecond.resourceType.trans hfirst.resourceType,
    hsecond.workspaceId.trans hfirst.workspaceId, hsecond.parentId.trans hfirst.parentId,
    hsecond.version.trans hfirst.version⟩

/-- A row after a commit was there before or is inserted. -/
theorem commit_origin
    {statements : List Statement} (hcommit : commit current statements = some next)
    (hrow : row ∈ next) :
    (∃ old ∈ current, SameRow old row) ∨
      ∃ inserted, .insert inserted ∈ statements ∧ SameRow inserted row := by
  induction statements generalizing current with
  | nil =>
      rw [commit_nil, Option.some.injEq] at hcommit
      exact .inl ⟨row, hcommit ▸ hrow, .refl row⟩
  | cons statement rest ih =>
      cases statement with
      | insert added =>
          obtain ⟨-, hrest⟩ := commit_insert.mp hcommit
          rcases ih hrest with ⟨old, hold, hsame⟩ | ⟨inserted, hinserted, hsame⟩
          · rcases List.mem_append.mp hold with hold | hadded
            · exact .inl ⟨old, hold, hsame⟩
            · obtain rfl := List.mem_singleton.mp hadded
              exact .inr ⟨old, List.mem_cons_self, hsame⟩
          · exact .inr ⟨inserted, List.mem_cons_of_mem _ hinserted, hsame⟩
      | update resourceId columns =>
          rw [commit_update] at hcommit
          rcases ih hcommit with ⟨old, hold, hsame⟩ | ⟨inserted, hinserted, hsame⟩
          · rcases mem_updateRow.mp hold with ⟨hold, -⟩ | ⟨older, holder, -, rfl⟩
            · exact .inl ⟨old, hold, hsame⟩
            · exact .inl ⟨older, holder, (SameRow.write columns older).trans hsame⟩
          · exact .inr ⟨inserted, List.mem_cons_of_mem _ hinserted, hsame⟩

/-- A new version has a number that its request took from the clock. -/
theorem SkillCall.inserted_number
    {py : Python} {call : SkillCall} {view : View} {outcome : Outcome}
    (houtcome : call.handle py view = .ok outcome)
    (hinsert : .insert row ∈ outcome.statements)
    (htype : row.resourceType = .skillVersion) :
    ∃ number previous, row.version = some number ∧
      newSkillVersionId py call.context.timeNs previous = .ok number := by
  unfold SkillCall.handle at houtcome
  cases hrequest : call.request <;> simp only [hrequest] at houtcome
  case create body =>
    unfold createSkill at houtcome
    simp only [bind_eq_ok, pure_eq_ok] at houtcome
    obtain ⟨payload, -, number, hnumber, name, -, version, hversion, rfl⟩ := houtcome
    rcases List.mem_cons.mp hinsert with hskill | hlast
    · cases hskill
      simp [createResource] at htype
    · cases List.mem_singleton.mp hlast
      exact ⟨number, _, (createSkillVersionResource_eq_ok hversion).2, hnumber⟩
  case createVersion skillId body =>
    unfold createSkillVersion at houtcome
    simp only [bind_eq_ok, pure_eq_ok] at houtcome
    obtain ⟨skill, -, payload, -, number, hnumber, version, hversion, rfl⟩ := houtcome
    rcases List.mem_cons.mp hinsert with hfirst | hlast
    · cases hfirst
      exact ⟨number, _, (createSkillVersionResource_eq_ok hversion).2, hnumber⟩
    · cases List.mem_singleton.mp hlast
  case delete skillId =>
    unfold deleteSkill at houtcome
    simp only [bind_eq_ok, pure_eq_ok] at houtcome
    obtain ⟨skill, -, rfl⟩ := houtcome
    cases List.mem_singleton.mp hinsert
  case deleteVersion skillId version =>
    unfold deleteSkillVersion at houtcome
    simp only [bind_eq_ok, pure_eq_ok] at houtcome
    obtain ⟨row, -, rfl⟩ := houtcome
    cases List.mem_singleton.mp hinsert

/-! ## Numbers after 2001 -/

/-- The first instant of 2001 in microseconds. -/
def MICROSECONDS_2001 : ℤ := 978307200 * 10 ^ 6

/-- Every skill has a number, and every number is a time after 2001 or larger. -/
structure LateNumbers (rows : List Resource) : Prop where
  skills : SkillRows rows
  given : ∀ skill ∈ rows, skill.resourceType = .skill →
    numbersGiven rows skill.id ≠ []
  late : ∀ version ∈ rows, version.resourceType = .skillVersion →
    ∀ number ∈ version.version, MICROSECONDS_2001 ≤ number

theorem SkillCommit.given
    {py : Python} {call : SkillCall} {view : View}
    (hgiven : ∀ skill ∈ current, skill.resourceType = .skill →
      numbersGiven current skill.id ≠ [])
    (hcommitted : SkillCommit py call view current next) :
    ∀ skill ∈ next, skill.resourceType = .skill → numbersGiven next skill.id ≠ [] := by
  -- an update keeps the types and identifiers of rows and all numbers
  have hupdate : ∀ (rows : List Resource) (resourceId : String) (columns : Columns),
      (∀ skill ∈ rows, skill.resourceType = .skill → numbersGiven rows skill.id ≠ []) →
      ∀ skill ∈ updateRow rows resourceId columns, skill.resourceType = .skill →
        numbersGiven (updateRow rows resourceId columns) skill.id ≠ [] := by
    intro rows resourceId columns hrows skill hskill htype
    rw [numbersGiven_updateRow]
    rcases mem_updateRow.mp hskill with ⟨hold, -⟩ | ⟨old, hold, -, rfl⟩
    · exact hrows skill hold htype
    · exact hrows old hold htype
  cases hcommitted with
  | created body skill version number hrequest hfresh hversionFresh hskill hversion
      hlatest hnumber =>
      intro row hrow htype
      rw [numbersGiven_append, numbersGiven_append,
        numberFor_of_skill (selects_skill.mp hskill).1,
        numberFor_of_selects hversion hnumber]
      rcases List.mem_append.mp hrow with hrow | hlast
      · rcases List.mem_append.mp hrow with hold | hnew
        · simp [hgiven row hold htype]
        · obtain rfl := List.mem_singleton.mp hnew
          simp
      · rw [List.mem_singleton.mp hlast, (selects_skillVersion.mp hversion).1] at htype
        cases htype
  | versionCreated skillId body skill version number hrequest hread hnew hfresh hversion
      hnumber =>
      refine hupdate _ _ _ fun row hrow htype => ?_
      rw [numbersGiven_append]
      rcases List.mem_append.mp hrow with hold | hlast
      · simp [hgiven row hold htype]
      · rw [List.mem_singleton.mp hlast, (selects_skillVersion.mp hversion).1] at htype
        cases htype
  | deleted skillId skill columns hrequest hread hdata hdeleted =>
      exact hupdate _ _ _ hgiven
  | versionDeleted skillId number version columns hrequest hread hversion hnumber hdata
      hdeleted =>
      exact hupdate _ _ _ hgiven

theorem SkillCall.late
    {py : Python} {call : SkillCall} {view : View} (hlate : LateNumbers current)
    (hreads : Reads SkillRows RowsKept view current)
    (hclock : MICROSECONDS_2001 * 1000 ≤ call.context.timeNs)
    (hbody : call.body py view current = some next) : LateNumbers next := by
  have hcommitted := SkillCall.committed (hreads.views 0) hbody
  refine ⟨(hcommitted.rows hlate.skills (hreads.kept 0)).1, hcommitted.given hlate.given,
    ?_⟩
  intro version hversion htype number hnumber
  obtain ⟨outcome, houtcome, hcommit⟩ := SkillCall.body_eq_some.mp hbody
  rcases commit_origin hcommit hversion with ⟨old, hold, hsame⟩ |
    ⟨inserted, hinsert, hsame⟩
  · exact hlate.late old hold (hsame.resourceType.symm.trans htype) number
      (hsame.version ▸ hnumber)
  · obtain ⟨taken, previous, htaken, hnew⟩ := SkillCall.inserted_number houtcome hinsert
      (hsame.resourceType.symm.trans htype)
    rw [hsame.version, htaken, Option.mem_some_iff] at hnumber
    have hcandidate := candidate_le hnew
    unfold MICROSECONDS_2001 at hclock ⊢
    omega

/-! ## Requests one after the other -/

/-- The numbers of a skill grow up to the one that it names as its latest. -/
structure GrowingNumbers (rows : List Resource) : Prop where
  skills : SkillRows rows
  increasing : ∀ skillId, (numbersGiven rows skillId).Pairwise (· < ·)
  latest : ∀ skill ∈ rows, skill.resourceType = .skill →
    ∀ number, Dict.get skill.data "latest_version" = .int number →
    ∀ given ∈ numbersGiven rows skill.id, given ≤ number

/-- An update that leaves the latest versions of skills alone. -/
theorem GrowingNumbers.updateRow
    {columns : Columns} (hgrowing : GrowingNumbers current) (hdata : columns.data = none)
    (resourceId : String) : GrowingNumbers (updateRow current resourceId columns) := by
  refine ⟨hgrowing.skills.updateRow (by simp [hdata]), fun skillId => ?_, ?_⟩
  · rw [numbersGiven_updateRow]
    exact hgrowing.increasing skillId
  · intro skill hskill htype number hnumber
    rw [numbersGiven_updateRow]
    rcases mem_updateRow.mp hskill with ⟨hold, -⟩ | ⟨old, hold, -, rfl⟩
    · exact hgrowing.latest skill hold htype number hnumber
    · refine hgrowing.latest old hold htype number ?_
      simpa [Columns.write, hdata] using hnumber

theorem created_growing
    {workspaceId : String} {skill version : Resource}
    (hgrowing : GrowingNumbers current)
    (hrows : SkillRows (current ++ [skill] ++ [version]))
    (hfresh : ∀ other ∈ current, conflicts skill other = false)
    (hskill : (skillQuery workspaceId).selects skill = true)
    (hversion : (skillVersionQuery workspaceId skill.id).selects version = true)
    (hlatest : Dict.get skill.data "latest_version" = .int number)
    (hnumber : version.version = some number) :
    GrowingNumbers (current ++ [skill] ++ [version]) := by
  have hother : ∀ row ∈ current, row.id ≠ skill.id := by
    intro row hrow hid
    have hfree := hfresh row hrow
    simp [conflicts, hid] at hfree
  have hnone : numbersGiven current skill.id = [] := by
    rw [List.eq_nil_iff_forall_not_mem]
    intro given hgiven
    obtain ⟨row, hrow, htype, hparent, -⟩ := mem_numbersGiven.mp hgiven
    obtain ⟨parent, hmem, hid⟩ := hgrowing.skills.parents row hrow htype
    rw [hparent, Option.some.injEq] at hid
    exact hother parent hmem hid.symm
  have hnumbers : ∀ skillId, numbersGiven (current ++ [skill] ++ [version]) skillId =
      if skillId = skill.id then [number] else numbersGiven current skillId := by
    intro skillId
    rw [numbersGiven_append, numbersGiven_append,
      numberFor_of_skill (selects_skill.mp hskill).1,
      numberFor_of_selects hversion hnumber]
    by_cases hsame : skillId = skill.id
    · simp [hsame, hnone]
    · simp [hsame]
  refine ⟨hrows, fun skillId => ?_, ?_⟩
  · rw [hnumbers]
    split
    · exact List.pairwise_singleton _ _
    · exact hgrowing.increasing skillId
  · intro row hrow htype named hnamed given hgiven
    rw [hnumbers] at hgiven
    rcases List.mem_append.mp hrow with hrow | hlast
    · rcases List.mem_append.mp hrow with hold | hnew
      · rw [if_neg (hother row hold)] at hgiven
        exact hgrowing.latest row hold htype named hnamed given hgiven
      · obtain rfl := List.mem_singleton.mp hnew
        rw [if_pos rfl, List.mem_singleton] at hgiven
        rw [hlatest, Json.int.injEq] at hnamed
        omega
    · rw [List.mem_singleton.mp hlast, (selects_skillVersion.mp hversion).1] at htype
      cases htype

theorem versionCreated_growing
    {py : Python} {timeNs : ℤ} {workspaceId : String} {skill version : Resource}
    (hgrowing : GrowingNumbers current)
    (hrows : SkillRows (updateRow (current ++ [version]) skillId
      { data := some (Dict.set skill.data "latest_version" (.int number)) }))
    (hread : getResource current skillId (skillQuery workspaceId) = some skill)
    (hnew : newSkillVersionId py timeNs (Dict.get skill.data "latest_version") =
      .ok number)
    (hversion : (skillVersionQuery workspaceId skillId).selects version = true)
    (hnumber : version.version = some number) :
    GrowingNumbers (updateRow (current ++ [version]) skillId
      { data := some (Dict.set skill.data "latest_version" (.int number)) }) := by
  obtain ⟨hskill, hid, hselects⟩ := getResource_eq_some hread
  have hskillType := (selects_skill.mp hselects).1
  obtain ⟨previous, hprevious⟩ := hgrowing.skills.latest skill hskill hskillType
  have hlarger : ∀ given ∈ numbersGiven current skillId, given < number := by
    intro given hgiven
    have hle := hgrowing.latest skill hskill hskillType previous hprevious given
      (hid ▸ hgiven)
    rw [hprevious, newSkillVersionId_int, Except.ok.injEq] at hnew
    omega
  have hnumbers : ∀ other, numbersGiven (updateRow (current ++ [version]) skillId
      { data := some (Dict.set skill.data "latest_version" (.int number)) }) other =
      numbersGiven current other ++ if other = skillId then [number] else [] := by
    intro other
    rw [numbersGiven_updateRow, numbersGiven_append,
      numberFor_of_selects hversion hnumber]
    by_cases hsame : other = skillId <;> simp [hsame]
  refine ⟨hrows, fun other => ?_, ?_⟩
  · rw [hnumbers]
    split
    next hsame =>
      rw [List.pairwise_append]
      refine ⟨hgrowing.increasing other, List.pairwise_singleton _ _, ?_⟩
      intro given hgiven last hlast
      rw [List.mem_singleton.mp hlast]
      exact hlarger given (hsame ▸ hgiven)
    next => simpa using hgrowing.increasing other
  · intro row hrow htype named hnamed given hgiven
    rw [hnumbers, List.mem_append] at hgiven
    rcases mem_updateRow.mp hrow with ⟨hmem, hother⟩ | ⟨old, hold, holdId, rfl⟩
    · rw [if_neg hother] at hgiven
      have hearlier := hgiven.resolve_right List.not_mem_nil
      rcases List.mem_append.mp hmem with hmem | hlast
      · exact hgrowing.latest row hmem htype named hnamed given hearlier
      · rw [List.mem_singleton.mp hlast, (selects_skillVersion.mp hversion).1] at htype
        cases htype
    · change Dict.get (Dict.set skill.data "latest_version" (.int number))
        "latest_version" = .int named at hnamed
      rw [Dict.get_set_same, Json.int.injEq] at hnamed
      change given ∈ numbersGiven current old.id ∨
        given ∈ (if old.id = skillId then [number] else []) at hgiven
      rw [holdId, if_pos rfl, List.mem_singleton] at hgiven
      rcases hgiven with hearlier | rfl
      · exact hnamed ▸ (hlarger given hearlier).le
      · exact hnamed.le

theorem SkillCommit.growing
    {py : Python} {call : SkillCall} {view : View} (hview : view 0 = current)
    (hgrowing : GrowingNumbers current)
    (hcommitted : SkillCommit py call view current next) : GrowingNumbers next := by
  have hrows := (hcommitted.rows hgrowing.skills (hview ▸ RowsKept.refl _)).1
  cases hcommitted with
  | created body skill version number hrequest hfresh hversionFresh hskill hversion
      hlatest hnumber =>
      exact created_growing hgrowing hrows hfresh hskill hversion hlatest hnumber
  | versionCreated skillId body skill version number hrequest hread hnew hfresh hversion
      hnumber =>
      exact versionCreated_growing hgrowing hrows (hview ▸ hread) hnew hversion hnumber
  | deleted skillId skill columns hrequest hread hdata hdeleted =>
      exact hgrowing.updateRow hdata _
  | versionDeleted skillId number version columns hrequest hread hversion hnumber hdata
      hdeleted =>
      exact hgrowing.updateRow hdata _

end

/-! ## Runs -/

theorem skillStep_ordered
    {py : Python} {world next : SkillWorld} {label : SkillCall × List ℕ}
    (hordered : world.Ordered SkillRows RowsKept)
    (hstep : skillStep py world label = some next) : next.Ordered SkillRows RowsKept := by
  refine step_ordered RowsKept.refl RowsKept.trans ?_ hordered hstep
  intro call view current next hreads hbody
  exact (SkillCall.committed (hreads.views 0) hbody).rows hreads.invariant (hreads.kept 0)

theorem start_ordered : SkillWorld.start.Ordered SkillRows RowsKept := by
  constructor <;> simp [SkillWorld.start, Timeline.history, skillRows_nil]

theorem run_late
    {py : Python} {last : SkillWorld} {calls : List (SkillCall × List ℕ)}
    (hrun : run (skillStep py) SkillWorld.start calls = some last)
    (hclock : ∀ label ∈ calls, MICROSECONDS_2001 * 1000 ≤ label.1.context.timeNs) :
    LateNumbers last.current := by
  have hkeeps : ∀ world label next,
      world.Ordered SkillRows RowsKept ∧ LateNumbers world.current → label ∈ calls →
      skillStep py world label = some next →
      next.Ordered SkillRows RowsKept ∧ LateNumbers next.current := by
    rintro world label next ⟨hordered, hlate⟩ hlabel hstep
    refine ⟨skillStep_ordered hordered hstep, ?_⟩
    obtain ⟨hages, rfl | ⟨state, hbody, rfl⟩⟩ := step_cases hstep
    · exact hlate
    · exact SkillCall.late hlate (hordered.reads RowsKept.refl hages)
        (hclock label hlabel) hbody
  have hstart : LateNumbers SkillWorld.start.current := by
    refine ⟨skillRows_nil, ?_, ?_⟩ <;> simp [SkillWorld.start]
  exact (run_invariant_of_allSteps hkeeps ⟨start_ordered, hstart⟩
    (allSteps_mem _ _) hrun).2

theorem run_growing
    {py : Python} {last : SkillWorld} {calls : List (SkillCall × List ℕ)}
    (hrun : run (skillStep py) SkillWorld.start calls = some last)
    (halone : ∀ label ∈ calls, label.2 = []) : GrowingNumbers last.current := by
  have hkeeps : ∀ world label next, GrowingNumbers world.current → label ∈ calls →
      skillStep py world label = some next → GrowingNumbers next.current := by
    intro world label next hgrowing hlabel hstep
    obtain ⟨-, rfl | ⟨state, hbody, rfl⟩⟩ := step_cases hstep
    · exact hgrowing
    · have hview : world.view label.2 0 = world.current := by
        rw [halone label hlabel]
        rfl
      exact (SkillCall.committed (hview ▸ hgrowing.skills) hbody).growing hview hgrowing
  have hstart : GrowingNumbers SkillWorld.start.current := by
    refine ⟨skillRows_nil, ?_, ?_⟩ <;> simp [SkillWorld.start, numbersGiven]
  exact run_invariant_of_allSteps hkeeps hstart (allSteps_mem _ _) hrun

/-- The numbers of a skill grow while requests do not overlap, but none of them fits
the column if the clock is past the year 2000. -/
theorem skill_versions_never_fit
    {py : Python} {last : SkillWorld} {calls : List (SkillCall × List ℕ)}
    (hrun : run (skillStep py) SkillWorld.start calls = some last)
    (hclock : ∀ label ∈ calls,
      MICROSECONDS_2001 * 1000 ≤ label.1.context.timeNs) {skill : Resource}
    (hskill : skill ∈ last.current) (htype : skill.resourceType = .skill) :
    ((∀ label ∈ calls, label.2 = []) →
      (numbersGiven last.current skill.id).Pairwise (· < ·)) ∧
    (∀ number ∈ numbersGiven last.current skill.id, ¬FitsInteger number) ∧
    ¬UsableNumbers last.current skill.id := by
  have hlate := run_late hrun hclock
  have hunfit : ∀ number ∈ numbersGiven last.current skill.id, ¬FitsInteger number := by
    rintro number hnumber ⟨-, hsmall⟩
    obtain ⟨version, hversion, hversionType, -, hversionNumber⟩ :=
      mem_numbersGiven.mp hnumber
    have hlarge := hlate.late version hversion hversionType number hversionNumber
    unfold MICROSECONDS_2001 at hlarge
    omega
  refine ⟨fun halone => (run_growing hrun halone).increasing skill.id, hunfit, ?_⟩
  intro husable
  obtain ⟨number, hnumber⟩ :=
    List.exists_mem_of_ne_nil _ (hlate.given skill hskill htype)
  exact hunfit number hnumber (husable.stored number hnumber)

def numberedCall (tag : String) (request : SkillRequest) : SkillCall × List ℕ :=
  ({ context :=
      { workspaceId := "ws"
        supply := { uuidHex := fun draw => tag ++ toString draw, clock := fun _ => 0 }
        timeNs := 1750000000 * 10 ^ 9
        maxSkillArchiveBytes := 0
        objectStorage := true }
     request := request }, [])

/-- The clock stands still while a skill gets a second version. -/
def twoVersions : List (SkillCall × List ℕ) :=
  [numberedCall "a" (.create samplePayload),
   numberedCall "b" (.createVersion "skill_a0" samplePayload)]

def afterTwoVersions : SkillWorld :=
  (run (skillStep samplePython) SkillWorld.start twoVersions).get (by decide)

theorem twoVersions_run :
    run (skillStep samplePython) SkillWorld.start twoVersions = some afterTwoVersions :=
  (Option.some_get _).symm

theorem sample_skill_versions_never_fit :
    ∃ skill ∈ afterTwoVersions.current,
      (numbersGiven afterTwoVersions.current skill.id).Pairwise (· < ·) ∧
        ¬UsableNumbers afterTwoVersions.current skill.id := by
  have hskill : ∃ skill ∈ afterTwoVersions.current, skill.resourceType = .skill := by
    decide
  obtain ⟨skill, hmem, htype⟩ := hskill
  obtain ⟨hgrowing, -, hunusable⟩ :=
    skill_versions_never_fit twoVersions_run (by decide) hmem htype
  exact ⟨skill, hmem, hgrowing (by decide), hunusable⟩

/-- The first version of a skill has a number that its column does not hold. -/
theorem clock_exceeds_column :
    numbersGiven afterTwoVersions.current "skill_a0" =
        [1750000000000000, 1750000000000001] ∧
      ¬UsableNumbers afterTwoVersions.current "skill_a0" := by
  have hnumbers : numbersGiven afterTwoVersions.current "skill_a0" =
      [1750000000000000, 1750000000000001] := by
    decide
  refine ⟨hnumbers, fun husable => ?_⟩
  have hfits := (husable.stored 1750000000000000 (by rw [hnumbers]; simp)).2
  norm_num at hfits

end ManagedAgents
