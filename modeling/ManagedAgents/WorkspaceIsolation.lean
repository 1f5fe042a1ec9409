import ManagedAgents.Library.Projection
import ManagedAgents.WorkspaceWrites

/-!
# Workspaces

The rows of a workspace and the answers to its requests are those of a database in
which the workspace is alone: every run projects to a run of its own requests.
-/

namespace ManagedAgents

open Fallible LabelledRuns ReadCommitted

/-! ## Rows -/

/-- Identifiers are unique, and the parent of a row is a row of its workspace. -/
structure Housed (rows : List Resource) : Prop where
  ids : (rows.map ManagedResource.id).Nodup
  parents : ∀ row ∈ rows, ∀ parentId, row.parentId = some parentId →
    ∃ parent ∈ rows, parent.id = parentId ∧ parent.workspaceId = row.workspaceId

theorem Housed.nil : Housed [] where
  ids := List.nodup_nil
  parents := by simp

/-- A row of the workspace has the identifier. -/
def HasRow (workspaceId : String) (rows : List Resource) (rowId : String) : Prop :=
  ∃ row ∈ rows, row.id = rowId ∧ row.workspaceId = workspaceId

/-- No row moves to another workspace or disappears. -/
def Settled (older newer : List Resource) : Prop :=
  ∀ workspaceId rowId, HasRow workspaceId older rowId → HasRow workspaceId newer rowId

theorem Settled.refl (rows : List Resource) : Settled rows rows :=
  fun _ _ hholds => hholds

theorem Settled.trans
    {first second third : List Resource} (hfirst : Settled first second)
    (hsecond : Settled second third) : Settled first third :=
  fun workspaceId rowId hholds =>
    hsecond workspaceId rowId (hfirst workspaceId rowId hholds)

/-- The identifier of an inserted row is not that of a row of another workspace. -/
def Statement.FreshIn (rows : List Resource) : Statement → Prop
  | .insert row => ∀ other ∈ rows, other.id = row.id → other.workspaceId = row.workspaceId
  | .update _ _ => True

instance (rows : List Resource) (statement : Statement) :
    Decidable (statement.FreshIn rows) := by
  cases statement <;> unfold Statement.FreshIn <;> infer_instance

section

variable {workspaceId resourceId : String} {rows : List Resource} {row : Resource}
  {columns : Columns}

theorem Housed.workspace_eq
    (hrows : Housed rows) (hrow : row ∈ rows)
    (hholds : HasRow workspaceId rows row.id) : row.workspaceId = workspaceId := by
  obtain ⟨other, hother, hid, hworkspace⟩ := hholds
  obtain rfl := List.inj_on_of_nodup_map hrows.ids hother hrow hid
  exact hworkspace

/-! ### Insertions -/

/-- A row of another workspace is no obstacle to the insertion. -/
theorem Housed.conflicts_rowsOf
    (hrows : Housed rows)
    (hparents : ∀ parentId, row.parentId = some parentId →
      HasRow row.workspaceId rows parentId)
    (hfresh : (Statement.insert row).FreshIn rows) :
    (rowsOf row.workspaceId rows).any (conflicts row) = rows.any (conflicts row) := by
  rw [Bool.eq_iff_iff, List.any_eq_true, List.any_eq_true]
  constructor
  · rintro ⟨other, hother, hconflict⟩
    exact ⟨other, (mem_rowsOf.mp hother).1, hconflict⟩
  · rintro ⟨other, hother, hconflict⟩
    refine ⟨other, mem_rowsOf.mpr ⟨hother, ?_⟩, hconflict⟩
    unfold conflicts at hconflict
    rw [decide_eq_true_eq] at hconflict
    rcases hconflict with hid | ⟨-, hparent, -, hsome, -⟩
    · exact hfresh other hother hid.symm
    · -- the parent of both rows lies in one workspace
      obtain ⟨parentId, hparentId⟩ := Option.ne_none_iff_exists'.mp hsome
      obtain ⟨parent, hmem, rfl, hworkspace⟩ :=
        hrows.parents other hother parentId (hparent ▸ hparentId)
      rw [← hworkspace]
      exact hrows.workspace_eq hmem (hparents _ hparentId)

theorem Housed.append
    (hrows : Housed rows)
    (hparents : ∀ parentId, row.parentId = some parentId →
      HasRow row.workspaceId rows parentId)
    (hfree : rows.any (conflicts row) = false) : Housed (rows ++ [row]) where
  ids := by
    refine ids_append hrows.ids fun other hother hid => ?_
    have hdiffers := List.any_eq_false.mp hfree other hother
    simp [conflicts, hid] at hdiffers
  parents := by
    intro held hheld parentId hparentId
    rcases List.mem_append.mp hheld with hheld | hheld
    · obtain ⟨parent, hparent, hplace⟩ := hrows.parents held hheld parentId hparentId
      exact ⟨parent, List.mem_append_left _ hparent, hplace⟩
    · obtain rfl := List.mem_singleton.mp hheld
      obtain ⟨parent, hparent, hplace⟩ := hparents parentId hparentId
      exact ⟨parent, List.mem_append_left _ hparent, hplace⟩

theorem settled_append (rows : List Resource) (row : Resource) :
    Settled rows (rows ++ [row]) := by
  rintro workspaceId rowId ⟨held, hheld, hplace⟩
  exact ⟨held, List.mem_append_left _ hheld, hplace⟩

theorem rowsOf_append_own (hrow : row.workspaceId = workspaceId) :
    rowsOf workspaceId (rows ++ [row]) = rowsOf workspaceId rows ++ [row] := by
  simp [rowsOf, hrow]

theorem rowsOf_append_other (hrow : row.workspaceId ≠ workspaceId) :
    rowsOf workspaceId (rows ++ [row]) = rowsOf workspaceId rows := by
  simp [rowsOf, hrow]

/-! ### Updates -/

theorem holds_updateRow
    {rowId : String} :
    HasRow workspaceId (updateRow rows resourceId columns) rowId ↔
      HasRow workspaceId rows rowId := by
  constructor
  · rintro ⟨row, hrow, hplace⟩
    rcases mem_updateRow.mp hrow with ⟨hmem, -⟩ | ⟨old, hmem, -, rfl⟩
    · exact ⟨row, hmem, hplace⟩
    · exact ⟨old, hmem, hplace⟩
  · rintro ⟨row, hrow, hplace⟩
    by_cases hid : row.id = resourceId
    · exact ⟨columns.write row, mem_updateRow.mpr (.inr ⟨row, hrow, hid, rfl⟩), hplace⟩
    · exact ⟨row, mem_updateRow.mpr (.inl ⟨hrow, hid⟩), hplace⟩

theorem Housed.updateRow
    (hrows : Housed rows) (resourceId : String) (columns : Columns) :
    Housed (updateRow rows resourceId columns) where
  ids := (ids_updateRow rows resourceId columns).symm ▸ hrows.ids
  parents := by
    intro row hrow parentId hparentId
    refine holds_updateRow.mpr ?_
    rcases mem_updateRow.mp hrow with ⟨hmem, -⟩ | ⟨old, hmem, -, rfl⟩
    · exact hrows.parents row hmem parentId hparentId
    · exact hrows.parents old hmem parentId hparentId

theorem rowsOf_updateRow :
    rowsOf workspaceId (updateRow rows resourceId columns) =
      updateRow (rowsOf workspaceId rows) resourceId columns := by
  unfold rowsOf updateRow
  rw [List.filter_map]
  congr 1
  apply List.filter_congr
  intro row _
  simp only [Function.comp_apply]
  split <;> rfl

/-- The update of a row of another workspace. -/
theorem Housed.rowsOf_updateRow_other
    {otherId : String} (hrows : Housed rows) (hholds : HasRow workspaceId rows resourceId)
    (hother : otherId ≠ workspaceId) :
    rowsOf otherId (ManagedAgents.updateRow rows resourceId columns) =
      rowsOf otherId rows := by
  rw [rowsOf_updateRow]
  unfold ManagedAgents.updateRow
  refine (List.map_congr_left ?_).trans (List.map_id _)
  intro row hrow
  obtain ⟨hmem, hworkspace⟩ := mem_rowsOf.mp hrow
  rw [id_eq, if_neg]
  rintro rfl
  exact hother (hworkspace.symm.trans (hrows.workspace_eq hmem hholds))

/-! ### Statements -/

/-- A statement of the workspace has the same effect on its rows alone. -/
theorem execute_rowsOf
    {known : String → Prop} {statement : Statement} {rest : List Statement}
    (hrows : Housed rows) (hknown : ∀ rowId, known rowId → HasRow workspaceId rows rowId)
    (howned : OwnedStatements workspaceId known (statement :: rest))
    (hfresh : statement.FreshIn rows) :
    statement.execute (rowsOf workspaceId rows) =
      (statement.execute rows).map (rowsOf workspaceId) := by
  cases statement with
  | insert row =>
      obtain ⟨rfl, hparents, -⟩ := howned
      have hconflicts := hrows.conflicts_rowsOf
        (fun parentId hparentId => hknown parentId (hparents parentId hparentId)) hfresh
      simp only [Statement.execute, hconflicts]
      split
      · rfl
      · rw [Option.map_some, rowsOf_append_own rfl]
  | update resourceId columns =>
      simp only [Statement.execute, Option.map_some, rowsOf_updateRow]

/-- What a statement of the workspace keeps of all rows. -/
structure Executed (workspaceId : String) (rows next : List Resource) : Prop where
  housed : Housed next
  settled : Settled rows next
  others : ∀ otherId, otherId ≠ workspaceId → rowsOf otherId next = rowsOf otherId rows

theorem Executed.trans
    {middle next : List Resource} (hfirst : Executed workspaceId rows middle)
    (hsecond : Executed workspaceId middle next) : Executed workspaceId rows next where
  housed := hsecond.housed
  settled := hfirst.settled.trans hsecond.settled
  others := fun otherId hother =>
    (hsecond.others otherId hother).trans (hfirst.others otherId hother)

theorem execute_owned
    {known : String → Prop} {statement : Statement} {rest : List Statement}
    {next : List Resource} (hrows : Housed rows)
    (hknown : ∀ rowId, known rowId → HasRow workspaceId rows rowId)
    (howned : OwnedStatements workspaceId known (statement :: rest))
    (hexecute : statement.execute rows = some next) :
    Executed workspaceId rows next ∧
      ∃ nowKnown, OwnedStatements workspaceId nowKnown rest ∧
        ∀ rowId, nowKnown rowId → HasRow workspaceId next rowId := by
  cases statement with
  | insert row =>
      obtain ⟨rfl, hparents, hrest⟩ := howned
      simp only [Statement.execute] at hexecute
      split at hexecute
      · cases hexecute
      next hfree =>
        cases hexecute
        rw [Bool.not_eq_true] at hfree
        refine ⟨⟨?_, settled_append rows row, ?_⟩, _, hrest, ?_⟩
        · exact hrows.append (fun parentId hparentId =>
            hknown parentId (hparents parentId hparentId)) hfree
        · exact fun otherId hother => rowsOf_append_other hother.symm
        · rintro rowId (hrowId | rfl)
          · exact settled_append rows row _ _ (hknown rowId hrowId)
          · exact ⟨row, List.mem_append_right _ (List.mem_singleton_self row), rfl, rfl⟩
  | update resourceId columns =>
      obtain ⟨hresource, hrest⟩ := howned
      cases hexecute
      have hholds := hknown resourceId hresource
      refine ⟨⟨hrows.updateRow resourceId columns, ?_, ?_⟩, known, hrest, ?_⟩
      · exact fun workspaceId rowId => holds_updateRow.mpr
      · exact fun otherId hother => hrows.rowsOf_updateRow_other hholds hother
      · exact fun rowId hrowId => holds_updateRow.mpr (hknown rowId hrowId)

/-- The new rows of a workspace take no identifier from another one. -/
theorem Executed.freshIn
    {statement : Statement} {next : List Resource}
    (hnext : Executed workspaceId rows next)
    (hown : ∀ row, statement = .insert row → row.workspaceId = workspaceId)
    (hfresh : statement.FreshIn rows) : statement.FreshIn next := by
  cases statement with
  | insert row =>
      intro other hother hid
      by_contra hdiffers
      rw [hown row rfl] at hdiffers
      have hold : other ∈ rowsOf other.workspaceId rows :=
        hnext.others _ hdiffers ▸ mem_rowsOf.mpr ⟨hother, rfl⟩
      exact hdiffers ((hfresh other (mem_rowsOf.mp hold).1 hid).trans (hown row rfl))
  | update resourceId columns => trivial

theorem OwnedStatements.insert_workspace
    {known : String → Prop} {statements : List Statement}
    (howned : OwnedStatements workspaceId known statements)
    (hrow : Statement.insert row ∈ statements) : row.workspaceId = workspaceId := by
  induction statements generalizing known with
  | nil => cases hrow
  | cons statement rest ih =>
      cases statement with
      | insert first =>
          obtain ⟨hfirst, -, hrest⟩ := howned
          rcases List.mem_cons.mp hrow with heq | hrow
          · cases heq
            exact hfirst
          · exact ih hrest hrow
      | update resourceId columns =>
          rcases List.mem_cons.mp hrow with heq | hrow
          · cases heq
          · exact ih howned.2 hrow

theorem commit_executed
    {known : String → Prop} {statements : List Statement} {next : List Resource}
    (hrows : Housed rows) (hknown : ∀ rowId, known rowId → HasRow workspaceId rows rowId)
    (howned : OwnedStatements workspaceId known statements)
    (hcommit : commit rows statements = some next) : Executed workspaceId rows next := by
  induction statements generalizing rows known with
  | nil =>
      obtain rfl := Option.some.inj hcommit
      exact ⟨hrows, Settled.refl rows, fun _ _ => rfl⟩
  | cons statement rest ih =>
      unfold commit at ih hcommit
      rw [List.foldlM_cons] at hcommit
      obtain ⟨middle, hexecute, hrest⟩ := Option.bind_eq_some_iff.mp hcommit
      obtain ⟨hmiddle, nowKnown, howned, hknown⟩ :=
        execute_owned hrows hknown howned hexecute
      exact hmiddle.trans (ih hmiddle.housed hknown howned hrest)

/-- A commit of the workspace has the same effect on its rows alone. -/
theorem commit_rowsOf
    {known : String → Prop} {statements : List Statement} (hrows : Housed rows)
    (hknown : ∀ rowId, known rowId → HasRow workspaceId rows rowId)
    (howned : OwnedStatements workspaceId known statements)
    (hfresh : ∀ statement ∈ statements, statement.FreshIn rows) :
    commit (rowsOf workspaceId rows) statements =
      (commit rows statements).map (rowsOf workspaceId) := by
  induction statements generalizing rows known with
  | nil => rfl
  | cons statement rest ih =>
      have halone := execute_rowsOf hrows hknown howned
        (hfresh statement List.mem_cons_self)
      unfold commit at ih ⊢
      simp only [List.foldlM_cons, halone]
      cases hexecute : statement.execute rows with
      | none => rfl
      | some middle =>
          obtain ⟨hmiddle, nowKnown, hrest, hnowKnown⟩ :=
            execute_owned hrows hknown howned hexecute
          refine ih hmiddle.housed hnowKnown hrest fun later hmem => ?_
          exact hmiddle.freshIn (fun row heq => hrest.insert_workspace (heq ▸ hmem))
            (hfresh later (List.mem_cons_of_mem _ hmem))

end

/-! ## Transactions -/

/-- No identifier which the request draws is that of a row of another workspace. -/
def WorkspaceCall.Fresh (settings : WorkspaceSettings) (call : WorkspaceCall)
    (view : View)
    (current : List Resource) : Prop :=
  match call.handle settings view with
  | .error _ => True
  | .ok outcome => ∀ statement ∈ outcome.statements, statement.FreshIn current

instance (settings : WorkspaceSettings) (call : WorkspaceCall) (view : View)
    (current : List Resource) : Decidable (call.Fresh settings view current) := by
  unfold WorkspaceCall.Fresh
  split <;> infer_instance

section

variable {settings : WorkspaceSettings} {call : WorkspaceCall} {view : View}
  {current next : List Resource}

theorem foundIn_holds
    {workspaceId rowId : String} (hreads : Reads Housed Settled view current)
    (hfound : FoundIn workspaceId view rowId) : HasRow workspaceId current rowId := by
  obtain ⟨query, row, hrow, hplace⟩ := hfound
  exact hreads.kept query workspaceId rowId ⟨row, hrow, hplace⟩

theorem WorkspaceCall.body_executed
    (hreads : Reads Housed Settled view current)
    (hbody : call.body settings view current = some next) :
    Executed call.workspaceId current next := by
  unfold WorkspaceCall.body at hbody
  split at hbody
  · cases hbody
  next outcome houtcome =>
    split at hbody
    · cases hbody
    · exact commit_executed hreads.invariant (fun _ => foundIn_holds hreads)
        (WorkspaceCall.handle_owned houtcome) hbody

theorem WorkspaceCall.commit_rowsOf
    {outcome : WorkspaceOutcome} (hreads : Reads Housed Settled view current)
    (hfresh : call.Fresh settings view current)
    (houtcome : call.handle settings view = .ok outcome) :
    commit (rowsOf call.workspaceId current) outcome.statements =
      (commit current outcome.statements).map (rowsOf call.workspaceId) := by
  unfold WorkspaceCall.Fresh at hfresh
  rw [houtcome] at hfresh
  exact ManagedAgents.commit_rowsOf hreads.invariant (fun _ => foundIn_holds hreads)
    (WorkspaceCall.handle_owned houtcome) hfresh

/-- With the rows of its workspace alone a request commits the same. -/
theorem WorkspaceCall.body_viewOf
    (hreads : Reads Housed Settled view current)
    (hfresh : call.Fresh settings view current) :
    call.body settings (viewOf call.workspaceId view) (rowsOf call.workspaceId current) =
      (call.body settings view current).map (rowsOf call.workspaceId) := by
  unfold WorkspaceCall.body
  rw [WorkspaceCall.handle_viewOf]
  cases houtcome : call.handle settings view with
  | error error => rfl
  | ok outcome =>
      dsimp only
      split
      · rfl
      · exact WorkspaceCall.commit_rowsOf hreads hfresh houtcome

theorem WorkspaceCall.answer_viewOf
    (hreads : Reads Housed Settled view current)
    (hfresh : call.Fresh settings view current) :
    call.answer settings (viewOf call.workspaceId view)
        (rowsOf call.workspaceId current) = call.answer settings view current := by
  unfold WorkspaceCall.answer
  rw [WorkspaceCall.handle_viewOf]
  cases houtcome : call.handle settings view with
  | error error => rfl
  | ok outcome =>
      dsimp only
      rw [WorkspaceCall.commit_rowsOf hreads hfresh houtcome, Option.isSome_map]

end

/-! ## Runs -/

abbrev workspaceStep (settings : WorkspaceSettings) :
    Timeline (List Resource) → WorkspaceCall × List ℕ →
      Option (Timeline (List Resource)) :=
  ReadCommitted.step (WorkspaceCall.body settings)

def emptyTable : Timeline (List Resource) where
  current := []
  past := []

def WorkspaceCall.isOf (workspaceId : String) (call : WorkspaceCall) : Bool :=
  call.workspaceId = workspaceId

/-- The requests of a run with their answers. -/
abbrev workspaceAnswers (settings : WorkspaceSettings) :
    List (WorkspaceCall × List ℕ) →
      List (WorkspaceCall × Except HTTPException WorkspaceOutcome) :=
  answers (WorkspaceCall.body settings) (WorkspaceCall.answer settings) emptyTable

def FreshIn (settings : WorkspaceSettings) (timeline : Timeline (List Resource))
    (call : WorkspaceCall × List ℕ) : Prop :=
  call.1.Fresh settings (timeline.view call.2) timeline.current

instance (settings : WorkspaceSettings) (timeline : Timeline (List Resource))
    (call : WorkspaceCall × List ℕ) : Decidable (FreshIn settings timeline call) :=
  inferInstanceAs (Decidable (WorkspaceCall.Fresh ..))

theorem workspaceStep_ordered
    {settings : WorkspaceSettings} {timeline next : Timeline (List Resource)}
    {call : WorkspaceCall × List ℕ} (hordered : timeline.Ordered Housed Settled)
    (hstep : workspaceStep settings timeline call = some next) :
    next.Ordered Housed Settled := by
  refine step_ordered Settled.refl (fun _ _ _ => Settled.trans) ?_ hordered hstep
  intro call view current next hreads hbody
  have hexecuted := WorkspaceCall.body_executed hreads hbody
  exact ⟨hexecuted.housed, hexecuted.settled⟩

theorem emptyTable_ordered : emptyTable.Ordered Housed Settled where
  states := by
    intro rows hrows
    obtain rfl := List.mem_singleton.mp hrows
    exact Housed.nil
  order := List.pairwise_singleton _ _

theorem emptyTable_projects (workspaceId : String) :
    Projects (rowsOf workspaceId) id emptyTable emptyTable where
  current := rfl
  monotone := monotone_id
  states := by
    intro index rows hrows
    obtain ⟨hlt, rfl⟩ := List.getElem?_eq_some_iff.mp hrows
    obtain rfl : index = 0 := Nat.lt_one_iff.mp hlt
    rfl

/-- Of every run the part of a workspace is a run of its requests alone. -/
theorem workspace_isolated
    {settings : WorkspaceSettings} {calls : List (WorkspaceCall × List ℕ)}
    {last : Timeline (List Resource)}
    (hfresh : AllSteps (workspaceStep settings) (FreshIn settings) emptyTable calls)
    (hrun : run (workspaceStep settings) emptyTable calls = some last)
    (workspaceId : String) :
    ∃ ownCalls alone,
      ownCalls.map Prod.fst =
        (calls.map Prod.fst).filter (WorkspaceCall.isOf workspaceId) ∧
      run (workspaceStep settings) emptyTable ownCalls = some alone ∧
      alone.current = rowsOf workspaceId last.current ∧
      workspaceAnswers settings ownCalls =
        (workspaceAnswers settings calls).filter
          fun entry => entry.1.isOf workspaceId := by
  have hordered : AllSteps (workspaceStep settings)
      (fun timeline call => timeline.Ordered Housed Settled ∧
        Admissible timeline call.2) emptyTable calls :=
    allSteps_of_run
      (fun timeline call next hordered hstep =>
        ⟨workspaceStep_ordered hordered hstep, hordered, (step_cases hstep).1⟩)
      emptyTable_ordered hrun
  have hparts : AllSteps (workspaceStep settings) (fun timeline call =>
      if call.1.isOf workspaceId then
        SeesPart (WorkspaceCall.body settings) (WorkspaceCall.body settings)
          (WorkspaceCall.answer settings) (WorkspaceCall.answer settings)
          (rowsOf workspaceId) timeline call
      else SparesPart (WorkspaceCall.body settings) (rowsOf workspaceId) timeline call)
      emptyTable calls := by
    refine (hfresh.and hordered).mono ?_
    rintro timeline call ⟨hfresh, hordered, hages⟩
    have hreads := hordered.reads Settled.refl hages
    split
    next hown =>
      obtain rfl : call.1.workspaceId = workspaceId := of_decide_eq_true hown
      exact ⟨WorkspaceCall.body_viewOf hreads hfresh,
        WorkspaceCall.answer_viewOf hreads hfresh⟩
    next hother =>
      intro next hbody
      have hdiffers : workspaceId ≠ call.1.workspaceId := by
        rintro rfl
        exact hother (decide_eq_true rfl)
      exact (WorkspaceCall.body_executed hreads hbody).others workspaceId hdiffers
  obtain ⟨ownCalls, alone, places, hlabels, halone, hprojects, hanswers⟩ :=
    run_project hparts (emptyTable_projects workspaceId) hrun
  exact ⟨ownCalls, alone, hlabels, halone, hprojects.current_eq, hanswers⟩

/-! ## Two workspaces whose requests alternate -/

def sampleWorkspaceSettings : WorkspaceSettings where
  py := sampleInterpreter
  encryption := { encryptionKey := .ok none, aesgcmEncrypt := fun _ _ _ => [] }
  maxSkillArchiveBytes := 0
  objectStorage := true

def sampleWorkspaceCall (workspaceId tag : String) (ages : List ℕ)
    (request : WorkspaceRequest) : WorkspaceCall × List ℕ :=
  ({ workspaceId := workspaceId
     supply := sampleSupply tag
     nonce := fun _ => List.replicate 12 0
     timeNs := 7000
     request := request }, ages)

def sampleWorkspaceCalls : List (WorkspaceCall × List ℕ) :=
  [sampleWorkspaceCall "red" "a" [] (.createVault [("display_name", .str "keys")]),
   sampleWorkspaceCall "blue" "b" [] (.createVault [("display_name", .str "keys")]),
   sampleWorkspaceCall "blue" "c" [] (.retrieveVault "vault_a0"),
   sampleWorkspaceCall "red" "d" [1] (.archiveVault "vault_a0"),
   sampleWorkspaceCall "blue" "e" [] (.createSkill samplePayload),
   sampleWorkspaceCall "red" "f" [] .listSkills,
   sampleWorkspaceCall "blue" "g" [] (.deleteVault "vault_b0")]

def sampleTables : Timeline (List Resource) :=
  (run (workspaceStep sampleWorkspaceSettings) emptyTable sampleWorkspaceCalls).get
    (by decide +kernel)

theorem sample_workspaces :
    ∃ ownCalls alone,
      ownCalls.map Prod.fst =
        (sampleWorkspaceCalls.map Prod.fst).filter (WorkspaceCall.isOf "blue") ∧
      run (workspaceStep sampleWorkspaceSettings) emptyTable ownCalls = some alone ∧
      alone.current = rowsOf "blue" sampleTables.current ∧
      workspaceAnswers sampleWorkspaceSettings ownCalls =
        (workspaceAnswers sampleWorkspaceSettings sampleWorkspaceCalls).filter
          fun entry => entry.1.isOf "blue" :=
  workspace_isolated (by decide +kernel) (Option.some_get _).symm "blue"

/-- The vault of one workspace is not found in the other. -/
example :
    (workspaceAnswers sampleWorkspaceSettings sampleWorkspaceCalls).map
        (fun entry => entry.2.toOption.isSome) =
      [true, true, false, true, true, true, true] := by
  decide +kernel

end ManagedAgents
