import ManagedAgents.DeploymentSystem
import ManagedAgents.DictAgreement

/-!
# What calls write of deployments

Which statements a call can write and what they do to the rows.  A call updates no
row twice and inserts a deployment only when it creates one.
-/

namespace ManagedAgents

open Fallible NewestPage

/-! ## Statements -/

def DeploymentStatement.target : DeploymentStatement → Option String
  | .updateDeployment deploymentId _ => some deploymentId
  | .insertDeployment _ | .insertRun _ | .insertSession _ => none

def DeploymentStatement.newDeployment : DeploymentStatement → Option Deployment
  | .insertDeployment row => some row
  | .updateDeployment .. | .insertRun _ | .insertSession _ => none

def DeploymentStatement.newRun : DeploymentStatement → Option DeploymentRun
  | .insertRun run => some run
  | .insertDeployment _ | .updateDeployment .. | .insertSession _ => none

def DeploymentStatement.newSession : DeploymentStatement → Option DeploymentSession
  | .insertSession session => some session
  | .insertDeployment _ | .updateDeployment .. | .insertRun _ => none

def DeploymentStatement.rewrite : DeploymentStatement → Deployment → Deployment
  | .updateDeployment deploymentId columns, row =>
      if row.id = deploymentId then columns.write row else row
  | .insertDeployment _, row | .insertRun _, row | .insertSession _, row => row

/-- The row after the statements. -/
def rowAfter (statements : List DeploymentStatement) (row : Deployment) : Deployment :=
  statements.foldl (fun row statement => statement.rewrite row) row

section

variable {db next : DeploymentDb} {statement : DeploymentStatement}
  {statements rest : List DeploymentStatement} {row : Deployment}

theorem commitDeployments_cons :
    commitDeployments db (statement :: rest) = some next ↔
      ∃ middle, statement.execute db = some middle ∧
        commitDeployments middle rest = some next := by
  unfold commitDeployments
  rw [List.foldlM_cons]
  exact Option.bind_eq_some_iff

/-- What one statement adds to the tables, and what it does to the rows. -/
theorem execute_eq_some
    (hexecute : statement.execute db = some next) :
    next.runs = db.runs ++ statement.newRun.toList ∧
      next.sessions = db.sessions ++ statement.newSession.toList ∧
        next.deployments = db.deployments.map statement.rewrite ++
          statement.newDeployment.toList := by
  have hkept : ∀ rows : List Deployment, rows = rows.map fun row => row :=
    fun rows => (List.map_id' rows).symm
  cases statement with
  | insertDeployment inserted =>
      simp only [DeploymentStatement.execute] at hexecute
      split at hexecute
      · cases hexecute
      · cases hexecute
        refine ⟨(List.append_nil _).symm, (List.append_nil _).symm, ?_⟩
        exact congrArg (· ++ [inserted]) (hkept db.deployments)
  | updateDeployment deploymentId columns =>
      cases hexecute
      exact ⟨(List.append_nil _).symm, (List.append_nil _).symm,
        (List.append_nil _).symm⟩
  | insertRun run =>
      simp only [DeploymentStatement.execute] at hexecute
      split at hexecute
      · cases hexecute
      · cases hexecute
        refine ⟨rfl, (List.append_nil _).symm, ?_⟩
        exact (hkept db.deployments).trans (List.append_nil _).symm
  | insertSession session =>
      simp only [DeploymentStatement.execute] at hexecute
      split at hexecute
      · cases hexecute
      · cases hexecute
        refine ⟨(List.append_nil _).symm, rfl, ?_⟩
        exact (hkept db.deployments).trans (List.append_nil _).symm

theorem commit_runs
    (hcommit : commitDeployments db statements = some next) :
    next.runs = db.runs ++ statements.filterMap DeploymentStatement.newRun := by
  induction statements generalizing db with
  | nil =>
      cases hcommit
      simp
  | cons statement rest ih =>
      obtain ⟨middle, hexecute, hcommit⟩ := commitDeployments_cons.mp hcommit
      rw [ih hcommit, (execute_eq_some hexecute).1, List.append_assoc]
      congr 1
      cases hrun : statement.newRun <;> simp [hrun]

theorem commit_sessions
    (hcommit : commitDeployments db statements = some next) :
    next.sessions =
      db.sessions ++ statements.filterMap DeploymentStatement.newSession := by
  induction statements generalizing db with
  | nil =>
      cases hcommit
      simp
  | cons statement rest ih =>
      obtain ⟨middle, hexecute, hcommit⟩ := commitDeployments_cons.mp hcommit
      rw [ih hcommit, (execute_eq_some hexecute).2.1, List.append_assoc]
      congr 1
      cases hsession : statement.newSession <;> simp [hsession]

/-- Without an insert every row is a row from before. -/
theorem commit_deployments
    (hinserts : ∀ statement ∈ statements, statement.newDeployment = none)
    (hcommit : commitDeployments db statements = some next) :
    next.deployments = db.deployments.map (rowAfter statements) := by
  induction statements generalizing db with
  | nil =>
      cases hcommit
      exact (List.map_id _).symm
  | cons statement rest ih =>
      obtain ⟨hfirst, hrest⟩ := List.forall_mem_cons.mp hinserts
      obtain ⟨middle, hexecute, hcommit⟩ := commitDeployments_cons.mp hcommit
      rw [ih hrest hcommit, (execute_eq_some hexecute).2.2, hfirst]
      simp [rowAfter]

theorem commit_insertDeployment
    (hcommit : commitDeployments db [.insertDeployment row] = some next) :
    row.id ∉ db.deployments.map Deployment.id ∧
      next = { db with deployments := db.deployments ++ [row] } := by
  obtain ⟨middle, hexecute, hcommit⟩ := commitDeployments_cons.mp hcommit
  cases hcommit
  simp only [DeploymentStatement.execute] at hexecute
  split at hexecute
  · cases hexecute
  next hfresh =>
    cases hexecute
    exact ⟨hfresh, rfl⟩

/-! ## Rows -/

@[simp] theorem rewrite_id (statement : DeploymentStatement) (row : Deployment) :
    (statement.rewrite row).id = row.id := by
  cases statement with
  | updateDeployment deploymentId columns =>
      simp only [DeploymentStatement.rewrite]
      split <;> rfl
  | insertDeployment | insertRun | insertSession => rfl

@[simp] theorem rowAfter_id (statements : List DeploymentStatement) (row : Deployment) :
    (rowAfter statements row).id = row.id := by
  unfold rowAfter
  induction statements generalizing row with
  | nil => rfl
  | cons statement rest ih => rw [List.foldl_cons, ih, rewrite_id]

theorem rewrite_of_target_ne
    (htarget : statement.target ≠ some row.id) : statement.rewrite row = row := by
  cases statement with
  | updateDeployment deploymentId columns =>
      have hne : row.id ≠ deploymentId := by
        rintro rfl
        exact htarget rfl
      simp [DeploymentStatement.rewrite, hne]
  | insertDeployment | insertRun | insertSession => rfl

theorem rowAfter_of_not_targeted
    (htargets : ∀ statement ∈ statements, statement.target ≠ some row.id) :
    rowAfter statements row = row := by
  unfold rowAfter
  induction statements with
  | nil => rfl
  | cons statement rest ih =>
      obtain ⟨hfirst, hrest⟩ := List.forall_mem_cons.mp htargets
      rw [List.foldl_cons, rewrite_of_target_ne hfirst]
      exact ih hrest

/-- A row which is updated at most once. -/
theorem rowAfter_cases
    (htargets : (statements.filterMap DeploymentStatement.target).Nodup)
    (row : Deployment) :
    ((∀ statement ∈ statements, statement.target ≠ some row.id) ∧
        rowAfter statements row = row) ∨
      ∃ columns, .updateDeployment row.id columns ∈ statements ∧
        rowAfter statements row = columns.write row := by
  induction statements with
  | nil => exact .inl ⟨by simp, rfl⟩
  | cons statement rest ih =>
      have hrest : (rest.filterMap DeploymentStatement.target).Nodup := by
        refine htargets.sublist ?_
        exact (List.sublist_cons_self _ _).filterMap _
      by_cases htarget : statement.target = some row.id
      · obtain ⟨deploymentId, columns, rfl⟩ : ∃ deploymentId columns,
            statement = .updateDeployment deploymentId columns := by
          cases statement with
          | updateDeployment deploymentId columns => exact ⟨deploymentId, columns, rfl⟩
          | insertDeployment | insertRun | insertSession => cases htarget
        obtain rfl : deploymentId = row.id := Option.some.inj htarget
        refine .inr ⟨columns, List.mem_cons_self, ?_⟩
        have hothers : ∀ statement ∈ rest,
            statement.target ≠ some (columns.write row).id := by
          intro other hother hsame
          rw [List.filterMap_cons_some htarget, List.nodup_cons] at htargets
          exact htargets.1 (List.mem_filterMap.mpr ⟨other, hother, hsame⟩)
        have hwritten := rowAfter_of_not_targeted hothers
        unfold rowAfter at hwritten ⊢
        rw [List.foldl_cons]
        simpa [DeploymentStatement.rewrite] using hwritten
      · have hafter : rowAfter (statement :: rest) row = rowAfter rest row := by
          unfold rowAfter
          rw [List.foldl_cons, rewrite_of_target_ne htarget]
        rw [hafter]
        rcases ih hrest with ⟨hnone, hsame⟩ | ⟨columns, hcolumns, hsame⟩
        · exact .inl ⟨List.forall_mem_cons.mpr ⟨htarget, hnone⟩, hsame⟩
        · exact .inr ⟨columns, List.mem_cons_of_mem _ hcolumns, hsame⟩

end

/-! ## The statements of a run -/

section

variable {outcome : RunOutcome} {deployment : Deployment}

theorem outcome_targets :
    (outcome.statements deployment).filterMap DeploymentStatement.target =
      [deployment.id] := by
  unfold RunOutcome.statements
  cases outcome.session <;> rfl

theorem outcome_newDeployment
    {statement : DeploymentStatement}
    (hstatement : statement ∈ outcome.statements deployment) :
    statement.newDeployment = none := by
  unfold RunOutcome.statements at hstatement
  rcases List.mem_cons.mp hstatement with rfl | hstatement
  · rfl
  · rcases List.mem_cons.mp hstatement with rfl | hstatement
    · rfl
    · cases hsession : outcome.session with
      | none => simp [hsession] at hstatement
      | some session =>
          obtain rfl : statement = .insertSession session := by
            simpa [hsession] using hstatement
          rfl

theorem outcome_newRun :
    (outcome.statements deployment).filterMap DeploymentStatement.newRun =
      [outcome.run] := by
  unfold RunOutcome.statements
  cases outcome.session <;> rfl

theorem outcome_newSession :
    (outcome.statements deployment).filterMap DeploymentStatement.newSession =
      outcome.session.toList := by
  unfold RunOutcome.statements
  cases outcome.session <;> rfl

end

/-! ## Ticks -/

section

variable {settings : DeploymentSettings} {tick : Tick} {view : DeploymentView}

/-- A statement of a tick comes from a visit. -/
theorem mem_tickLoop
    {index created : ℕ} {written : List DeploymentStatement}
    {deployments : List Deployment} {statement : DeploymentStatement}
    (hstatement : statement ∈
      (tickLoop settings tick view index created written deployments).statements) :
    statement ∈ written ∨ ∃ deployment ∈ deployments, ∃ query,
      (∃ outcome, tick.visit settings (view (query + 1)).runs deployment = .ran outcome ∧
        statement ∈ outcome.statements deployment) ∨
      ∃ error, tick.visit settings (view (query + 1)).runs deployment = .archived error ∧
        statement = tick.archiveRow deployment := by
  induction deployments generalizing index created written with
  | nil => exact .inl hstatement
  | cons deployment rest ih =>
      rw [tickLoop] at hstatement
      split at hstatement
      · exact .inl hstatement
      · split at hstatement
        next =>
          rcases ih hstatement with hbefore | ⟨held, hheld, hvisited⟩
          · exact .inl hbefore
          · exact .inr ⟨held, List.mem_cons_of_mem _ hheld, hvisited⟩
        next outcome hvisit =>
          rcases ih hstatement with hbefore | ⟨held, hheld, hvisited⟩
          · rcases List.mem_append.mp hbefore with hbefore | hnew
            · exact .inl hbefore
            · exact .inr ⟨deployment, List.mem_cons_self, index,
                .inl ⟨outcome, hvisit, hnew⟩⟩
          · exact .inr ⟨held, List.mem_cons_of_mem _ hheld, hvisited⟩
        next error hvisit =>
          rcases List.mem_append.mp hstatement with hbefore | harchive
          · exact .inl hbefore
          · exact .inr ⟨deployment, List.mem_cons_self, index,
              .inr ⟨error, hvisit, List.mem_singleton.mp harchive⟩⟩
        next error hvisit => cases hstatement

/-- A tick updates the rows in the order in which it visits them. -/
theorem tickLoop_targets
    (index created : ℕ) (written : List DeploymentStatement)
    (deployments : List Deployment) :
    ((tickLoop settings tick view index created written deployments).statements.filterMap
      DeploymentStatement.target).Sublist
        (written.filterMap DeploymentStatement.target ++ deployments.map Deployment.id) := by
  induction deployments generalizing index created written with
  | nil => simp [tickLoop]
  | cons deployment rest ih =>
      rw [tickLoop]
      split
      · exact List.sublist_append_left _ _
      · split
        next =>
          refine (ih _ _ _).trans ?_
          exact List.Sublist.append_left (List.sublist_cons_self _ _) _
        next outcome hvisit =>
          refine (ih _ _ _).trans ?_
          rw [List.filterMap_append, outcome_targets, List.append_assoc]
          exact List.Sublist.refl _
        next error hvisit =>
          rw [List.filterMap_append, List.map_cons]
          refine List.Sublist.append_left ?_ _
          exact List.Sublist.cons_cons _ (List.nil_sublist _)
        next error hvisit => exact List.nil_sublist _

theorem mem_listDeployments
    {db : DeploymentDb} {workspaceId : String} {deployment : Deployment}
    (hlisted : deployment ∈ listDeployments db workspaceId) :
    deployment ∈ db.deployments ∧ deployment.workspaceId = workspaceId ∧
      deployment.archivedAt = none := by
  have hmem := List.mem_filter.mp (mem_of_mem_page hlisted)
  exact ⟨hmem.1, by simpa using hmem.2⟩

theorem listDeployments_ids
    {db : DeploymentDb} (hids : (db.deployments.map Deployment.id).Nodup)
    (workspaceId : String) :
    ((listDeployments db workspaceId).map Deployment.id).Nodup := by
  have hpage : ((listDeployments db workspaceId).map Deployment.id).Subperm
      (db.deployments.map Deployment.id) := by
    have hsorted := List.take_sublist 1000
      ((db.deployments.filter fun row =>
        row.workspaceId = workspaceId ∧ row.archivedAt = none).insertionSort
          fun left right => toLex (right.createdAt, right.id) ≤
            toLex (left.createdAt, left.id))
    refine (hsorted.map Deployment.id).subperm.trans ?_
    refine ((List.perm_insertionSort _ _).map Deployment.id).subperm.trans ?_
    exact (List.filter_sublist.map Deployment.id).subperm
  obtain ⟨part, hperm, hsub⟩ := hpage
  exact hperm.nodup_iff.mp (hids.sublist hsub)

end

/-! ## Calls -/

/-- The call makes this run of the deployment. -/
inductive DeploymentCall.Makes (settings : DeploymentSettings) (call : DeploymentCall)
    (view : DeploymentView) (held : Deployment) (outcome : RunOutcome) : Prop
  | requested (workspaceId : String) (surroundings : Surroundings) (draws : RunDraws)
      (body : Dict)
      (hcall : call = .request workspaceId surroundings draws (.run held.id body))
      (hheld : held ∈ (view 0).deployments)
      (hrun : runDeploymentResource (settings.context workspaceId) draws surroundings
        .request held body = .ok outcome)
  | due (tick : Tick) (query : ℕ) (hcall : call = .scheduled tick)
      (hlisted : held ∈ listDeployments (view 0) tick.workspaceId)
      (hvisit : tick.visit settings (view (query + 1)).runs held = .ran outcome)

/-- The statements which a call can write, with where their data come from. -/
inductive DeploymentWrite (settings : DeploymentSettings) (call : DeploymentCall)
    (view : DeploymentView) : DeploymentStatement → Prop
  | created (workspaceId : String) (surroundings : Surroundings) (draws : RunDraws)
      (body : Dict) (row : Deployment)
      (hcall : call = .request workspaceId surroundings draws (.create body))
      (hdata : createdDeploymentData (settings.context workspaceId) draws surroundings
        body = .ok (row.data, row.status))
      (hopen : row.archivedAt = none) :
      DeploymentWrite settings call view (.insertDeployment row)
  | updated (workspaceId : String) (surroundings : Surroundings) (draws : RunDraws)
      (body : Dict) (held : Deployment) (data : Dict) (status : DeploymentStatus)
      (name : Option String)
      (hcall : call = .request workspaceId surroundings draws (.update held.id body))
      (hheld : held ∈ (view 0).deployments) (hopen : held.archivedAt = none)
      (hdata : updatedDeploymentData (settings.context workspaceId) draws surroundings
        held.data body = .ok (data, status)) :
      DeploymentWrite settings call view
        (updateDeploymentRow held data name (some status))
  | paused (held : Deployment) (hheld : held ∈ (view 0).deployments)
      (hopen : held.archivedAt = none) :
      DeploymentWrite settings call view
        (updateDeploymentRow held (pausedData held.data) none (some .paused))
  | unpaused (held : Deployment) (hheld : held ∈ (view 0).deployments)
      (hopen : held.archivedAt = none) :
      DeploymentWrite settings call view
        (updateDeploymentRow held (unpausedData held.data) none (some .active))
  | archived (held : Deployment) (now : Time) (hheld : held ∈ (view 0).deployments) :
      DeploymentWrite settings call view (archiveDeploymentRow held now)
  | ran (held : Deployment) (outcome : RunOutcome) (statement : DeploymentStatement)
      (hmakes : call.Makes settings view held outcome)
      (hstatement : statement ∈ outcome.statements held) :
      DeploymentWrite settings call view statement

section

variable {settings : DeploymentSettings} {call : DeploymentCall} {view : DeploymentView}
  {current next : DeploymentDb} {row : Deployment}

theorem findDeployment_eq_ok
    {db : DeploymentDb} {workspaceId deploymentId : String} {held : Deployment}
    (hheld : findDeployment db workspaceId deploymentId = .ok held) :
    held ∈ db.deployments ∧ held.id = deploymentId ∧ held.workspaceId = workspaceId := by
  unfold findDeployment at hheld
  split at hheld
  next found hfound =>
    cases hheld
    have hsame := List.find?_some hfound
    simp only [decide_eq_true_eq] at hsame
    exact ⟨List.mem_of_find?_eq_some hfound, hsame⟩
  next => cases hheld

theorem mem_of_answer
    {result : Except HTTPException (List DeploymentStatement)}
    {statement : DeploymentStatement}
    (hstatement : statement ∈ (DeploymentAnswer.of result).statements) :
    ∃ statements, result = .ok statements ∧ statement ∈ statements := by
  cases result with
  | ok statements => exact ⟨statements, rfl, hstatement⟩
  | error error => cases hstatement

theorem ensureDeploymentMutable_eq_ok
    {held : Deployment} {value : Unit} :
    ensureDeploymentMutable held = .ok value ↔ held.archivedAt = none := by
  unfold ensureDeploymentMutable
  rw [raiseIf_eq_ok, not_not]

/-- Everything that a call can write. -/
theorem DeploymentCall.mem_answer
    {statement : DeploymentStatement}
    (hstatement : statement ∈ (call.answer settings view).statements) :
    DeploymentWrite settings call view statement := by
  cases call with
  | scheduled tick =>
      have hvisited := mem_tickLoop hstatement
      rcases hvisited with hnone | ⟨held, hheld, query, hvisited⟩
      · cases hnone
      · rcases hvisited with ⟨outcome, hvisit, hmem⟩ | ⟨error, -, rfl⟩
        · exact .ran held outcome statement (.due tick query rfl hheld hvisit) hmem
        · exact .archived held _ (mem_listDeployments hheld).1
  | request workspaceId surroundings draws sent =>
      cases sent with
      | create body =>
          obtain ⟨statements, hanswer, hmem⟩ := mem_of_answer hstatement
          unfold createDeployment at hanswer
          simp only [bind_eq_ok, pure_eq_ok] at hanswer
          obtain ⟨⟨data, status⟩, hdata, name, -, rfl⟩ := hanswer
          obtain rfl := List.mem_singleton.mp hmem
          exact .created workspaceId surroundings draws body _ rfl hdata rfl
      | update deploymentId body =>
          obtain ⟨statements, hanswer, hmem⟩ := mem_of_answer hstatement
          unfold updateDeployment at hanswer
          simp only [bind_eq_ok, pure_eq_ok, ensureDeploymentMutable_eq_ok] at hanswer
          obtain ⟨held, hheld, -, hopen, ⟨data, status⟩, hdata, name, -, rfl⟩ := hanswer
          obtain rfl := List.mem_singleton.mp hmem
          obtain ⟨hfound, rfl, -⟩ := findDeployment_eq_ok hheld
          exact .updated workspaceId surroundings draws body held data status name rfl
            hfound hopen hdata
      | archive deploymentId =>
          obtain ⟨statements, hanswer, hmem⟩ := mem_of_answer hstatement
          unfold archiveDeployment at hanswer
          simp only [bind_eq_ok, pure_eq_ok] at hanswer
          obtain ⟨held, hheld, rfl⟩ := hanswer
          obtain rfl := List.mem_singleton.mp hmem
          exact .archived held _ (findDeployment_eq_ok hheld).1
      | pause deploymentId =>
          obtain ⟨statements, hanswer, hmem⟩ := mem_of_answer hstatement
          unfold pauseDeployment at hanswer
          simp only [bind_eq_ok, pure_eq_ok, ensureDeploymentMutable_eq_ok] at hanswer
          obtain ⟨held, hheld, -, hopen, rfl⟩ := hanswer
          obtain rfl := List.mem_singleton.mp hmem
          exact .paused held (findDeployment_eq_ok hheld).1 hopen
      | unpause deploymentId =>
          obtain ⟨statements, hanswer, hmem⟩ := mem_of_answer hstatement
          unfold unpauseDeployment at hanswer
          simp only [bind_eq_ok, pure_eq_ok, ensureDeploymentMutable_eq_ok] at hanswer
          obtain ⟨held, hheld, -, hopen, rfl⟩ := hanswer
          obtain rfl := List.mem_singleton.mp hmem
          exact .unpaused held (findDeployment_eq_ok hheld).1 hopen
      | run deploymentId body =>
          unfold DeploymentCall.answer DeploymentRequest.answer runDeployment at hstatement
          dsimp only at hstatement
          split at hstatement
          · cases hstatement
          next held hheld =>
            obtain ⟨hfound, rfl, -⟩ := findDeployment_eq_ok hheld
            unfold answerRun at hstatement
            split at hstatement
            next outcome hrun =>
              exact .ran held outcome statement
                (.requested workspaceId surroundings draws body rfl hfound hrun) hstatement
            next error hrun => cases hstatement
            next error hrun =>
              obtain rfl := List.mem_singleton.mp hstatement
              exact .archived held _ hfound

/-- A call that creates a deployment writes nothing else. -/
theorem DeploymentCall.answer_inserts
    (settings : DeploymentSettings) (call : DeploymentCall) (view : DeploymentView) :
    (∃ row, (call.answer settings view).statements = [.insertDeployment row]) ∨
      ∀ statement ∈ (call.answer settings view).statements,
        statement.newDeployment = none := by
  by_cases hcreates : ∃ workspaceId surroundings draws body,
      call = .request workspaceId surroundings draws (.create body)
  · obtain ⟨workspaceId, surroundings, draws, body, rfl⟩ := hcreates
    change (∃ row, (DeploymentAnswer.of (createDeployment _ _ _ _)).statements = _) ∨
      ∀ statement ∈ (DeploymentAnswer.of (createDeployment _ _ _ _)).statements, _
    cases hanswer : createDeployment (settings.context workspaceId) draws surroundings
        body with
    | error error => exact .inr (by simp [DeploymentAnswer.of])
    | ok statements =>
        unfold createDeployment at hanswer
        simp only [bind_eq_ok, pure_eq_ok] at hanswer
        obtain ⟨⟨data, status⟩, hdata, name, -, rfl⟩ := hanswer
        exact .inl ⟨_, rfl⟩
  · refine .inr fun statement hstatement => ?_
    cases DeploymentCall.mem_answer hstatement with
    | created workspaceId surroundings draws body row hcall hdata hopen =>
        exact absurd ⟨workspaceId, surroundings, draws, body, hcall⟩ hcreates
    | updated | paused | unpaused | archived => rfl
    | ran held outcome statement hmakes hmem => exact outcome_newDeployment hmem

/-- A call updates no row twice. -/
theorem DeploymentCall.answer_targets
    (settings : DeploymentSettings) (call : DeploymentCall)
    (hids : ((view 0).deployments.map Deployment.id).Nodup) :
    ((call.answer settings view).statements.filterMap
      DeploymentStatement.target).Nodup := by
  cases call with
  | scheduled tick =>
      exact (listDeployments_ids hids tick.workspaceId).sublist
        (tickLoop_targets 0 0 [] (listDeployments (view 0) tick.workspaceId))
  | request workspaceId surroundings draws sent =>
      have hshort : ∀ result : Except HTTPException (List DeploymentStatement),
          (∀ statements, result = .ok statements → statements.length ≤ 1) →
            ((DeploymentAnswer.of result).statements.filterMap
              DeploymentStatement.target).Nodup := by
        intro result hlength
        cases result with
        | error error => exact List.nodup_nil
        | ok statements =>
            have hone := (List.length_filterMap_le DeploymentStatement.target
              statements).trans (hlength statements rfl)
            change (statements.filterMap DeploymentStatement.target).Nodup
            cases htargets : statements.filterMap DeploymentStatement.target with
            | nil => exact List.nodup_nil
            | cons first rest =>
                rw [htargets, List.length_cons] at hone
                obtain rfl := List.eq_nil_of_length_eq_zero (by omega : rest.length = 0)
                exact List.nodup_singleton _
      cases sent with
      | run deploymentId body =>
          unfold DeploymentCall.answer DeploymentRequest.answer runDeployment
          dsimp only
          split
          · exact List.nodup_nil
          next held hheld =>
            unfold answerRun
            split
            · rw [outcome_targets]
              exact List.nodup_singleton _
            · exact List.nodup_nil
            · exact List.nodup_singleton _
      | create body =>
          refine hshort _ fun statements hanswer => ?_
          unfold createDeployment at hanswer
          simp only [bind_eq_ok, pure_eq_ok] at hanswer
          obtain ⟨⟨data, status⟩, -, name, -, rfl⟩ := hanswer
          exact le_rfl
      | update deploymentId body =>
          refine hshort _ fun statements hanswer => ?_
          unfold updateDeployment at hanswer
          simp only [bind_eq_ok, pure_eq_ok] at hanswer
          obtain ⟨held, -, -, -, ⟨data, status⟩, -, name, -, rfl⟩ := hanswer
          exact le_rfl
      | archive deploymentId =>
          refine hshort _ fun statements hanswer => ?_
          unfold archiveDeployment at hanswer
          simp only [bind_eq_ok, pure_eq_ok] at hanswer
          obtain ⟨held, -, rfl⟩ := hanswer
          exact le_rfl
      | pause deploymentId =>
          refine hshort _ fun statements hanswer => ?_
          unfold pauseDeployment at hanswer
          simp only [bind_eq_ok, pure_eq_ok] at hanswer
          obtain ⟨held, -, -, -, rfl⟩ := hanswer
          exact le_rfl
      | unpause deploymentId =>
          refine hshort _ fun statements hanswer => ?_
          unfold unpauseDeployment at hanswer
          simp only [bind_eq_ok, pure_eq_ok] at hanswer
          obtain ⟨held, -, -, -, rfl⟩ := hanswer
          exact le_rfl

/-! ## Rows after a call -/

/-- What becomes of a row that was there. -/
theorem DeploymentCall.row_after
    (hids : ((view 0).deployments.map Deployment.id).Nodup)
    (hbody : call.body settings view current = some next)
    (hrow : row ∈ current.deployments) :
    row ∈ next.deployments ∨ ∃ columns,
      DeploymentWrite settings call view (.updateDeployment row.id columns) ∧
        columns.write row ∈ next.deployments := by
  unfold DeploymentCall.body at hbody
  rcases call.answer_inserts settings view with ⟨inserted, hinserted⟩ | hinserts
  · rw [hinserted] at hbody
    obtain ⟨-, rfl⟩ := commit_insertDeployment hbody
    exact .inl (List.mem_append_left _ hrow)
  · rw [commit_deployments hinserts hbody]
    rcases rowAfter_cases (call.answer_targets settings hids) row with
      ⟨-, hsame⟩ | ⟨columns, hcolumns, hwritten⟩
    · exact .inl (List.mem_map.mpr ⟨row, hrow, hsame⟩)
    · exact .inr ⟨columns, DeploymentCall.mem_answer hcolumns,
        List.mem_map.mpr ⟨row, hrow, hwritten⟩⟩

/-- Where a row comes from. -/
theorem DeploymentCall.row_cases
    (hids : ((view 0).deployments.map Deployment.id).Nodup)
    (hbody : call.body settings view current = some next)
    (hrow : row ∈ next.deployments) :
    row ∈ current.deployments ∨
      DeploymentWrite settings call view (.insertDeployment row) ∨
      ∃ old ∈ current.deployments, ∃ columns,
        DeploymentWrite settings call view (.updateDeployment old.id columns) ∧
          row = columns.write old := by
  unfold DeploymentCall.body at hbody
  rcases call.answer_inserts settings view with ⟨inserted, hinserted⟩ | hinserts
  · have hmem : .insertDeployment inserted ∈ (call.answer settings view).statements := by
      rw [hinserted]
      exact List.mem_singleton_self _
    rw [hinserted] at hbody
    obtain ⟨-, rfl⟩ := commit_insertDeployment hbody
    rcases List.mem_append.mp hrow with hrow | hrow
    · exact .inl hrow
    · obtain rfl := List.mem_singleton.mp hrow
      exact .inr (.inl (DeploymentCall.mem_answer hmem))
  · rw [commit_deployments hinserts hbody] at hrow
    obtain ⟨old, hold, rfl⟩ := List.mem_map.mp hrow
    rcases rowAfter_cases (call.answer_targets settings hids) old with
      ⟨-, hsame⟩ | ⟨columns, hcolumns, hwritten⟩
    · rw [hsame]
      exact .inl hold
    · exact .inr (.inr ⟨old, hold, columns, DeploymentCall.mem_answer hcolumns, hwritten⟩)

theorem DeploymentCall.ids
    (hids : (current.deployments.map Deployment.id).Nodup)
    (hbody : call.body settings view current = some next) :
    (next.deployments.map Deployment.id).Nodup := by
  unfold DeploymentCall.body at hbody
  rcases call.answer_inserts settings view with ⟨inserted, hinserted⟩ | hinserts
  · rw [hinserted] at hbody
    obtain ⟨hfresh, rfl⟩ := commit_insertDeployment hbody
    rw [List.map_append, List.nodup_append]
    refine ⟨hids, List.nodup_singleton _, ?_⟩
    intro first hfirst second hsecond
    obtain rfl : second = inserted.id := by simpa using hsecond
    exact fun hsame => hfresh (hsame ▸ hfirst)
  · rw [commit_deployments hinserts hbody, List.map_map]
    have hsame : Deployment.id ∘ rowAfter (call.answer settings view).statements =
        Deployment.id := by
      funext row
      exact rowAfter_id _ row
    rwa [hsame]

/-- Where a new run comes from. -/
theorem DeploymentCall.new_run
    {run : DeploymentRun} (hrun : run ∈ (call.answer settings view).statements.filterMap
      DeploymentStatement.newRun) :
    ∃ held outcome, call.Makes settings view held outcome ∧ run = outcome.run := by
  obtain ⟨statement, hstatement, hnew⟩ := List.mem_filterMap.mp hrun
  cases DeploymentCall.mem_answer hstatement with
  | created | updated | paused | unpaused | archived => cases hnew
  | ran held outcome statement hmakes hmem =>
      have hruns : run ∈ (outcome.statements held).filterMap DeploymentStatement.newRun :=
        List.mem_filterMap.mpr ⟨statement, hmem, hnew⟩
      rw [outcome_newRun] at hruns
      exact ⟨held, outcome, hmakes, List.mem_singleton.mp hruns⟩

/-- Where a new session comes from. -/
theorem DeploymentCall.new_session
    {session : DeploymentSession}
    (hsession : session ∈ (call.answer settings view).statements.filterMap
      DeploymentStatement.newSession) :
    ∃ held outcome, call.Makes settings view held outcome ∧
      outcome.session = some session := by
  obtain ⟨statement, hstatement, hnew⟩ := List.mem_filterMap.mp hsession
  cases DeploymentCall.mem_answer hstatement with
  | created | updated | paused | unpaused | archived => cases hnew
  | ran held outcome statement hmakes hmem =>
      have hsessions : session ∈
          (outcome.statements held).filterMap DeploymentStatement.newSession :=
        List.mem_filterMap.mpr ⟨statement, hmem, hnew⟩
      rw [outcome_newSession] at hsessions
      exact ⟨held, outcome, hmakes, Option.mem_toList.mp hsessions⟩

end

/-! ## Runs of a deployment -/

/-- What a run that is made says of its deployment and its input. -/
structure RunOutcome.Of (context : DeploymentContext) (draws : RunDraws)
    (creator : RunCreator) (held : Deployment) (runInput : Dict) (outcome : RunOutcome) :
    Prop where
  isOpen : held.archivedAt = none
  trigger : isDeploymentPaused held = false ∨ runTrigger runInput = .str "manual"
  data : dataAfterRun context.calendar (draws.clock 0) held.data runInput =
    .ok outcome.data
  id : outcome.run.id = draws.runId
  workspace : outcome.run.workspaceId = context.workspaceId
  deployment : outcome.run.deploymentId = held.id
  createdAt : outcome.run.createdAt = draws.clock 2
  creator : outcome.run.creator = creator
  runTrigger : Dict.get outcome.run.data "trigger" = runTrigger runInput
  scheduledFor : Dict.get outcome.run.data "scheduled_for" =
    Dict.get runInput "scheduled_for"
  session : ∀ session, outcome.session = some session →
    Dict.get session.metadata "deployment_id" = .str held.id

section

variable {context : DeploymentContext} {draws : RunDraws} {surroundings : Surroundings}
  {creator : RunCreator} {held : Deployment} {runInput : Dict} {outcome : RunOutcome}

theorem lift_eq_ok
    {Result : Type} {result : Except HTTPException Result} {value : Result} :
    RunFailure.lift result = .ok value ↔ result = .ok value := by
  cases result <;> simp [RunFailure.lift, Except.mapError]

theorem session_lift_eq_ok
    {Result : Type} {result : Except HTTPException Result} {value : Result} :
    SessionFailure.lift result = .ok value ↔ result = .ok value := by
  cases result <;> simp [SessionFailure.lift, Except.mapError]

theorem runSessionMetadata_deployment
    {deploymentId runId : String} {metadata : Dict}
    (hmetadata : runSessionMetadata deploymentId runId runInput = .ok metadata) :
    Dict.get metadata "deployment_id" = .str deploymentId := by
  unfold runSessionMetadata at hmetadata
  simp only [bind_eq_ok, pure_eq_ok] at hmetadata
  obtain ⟨given, -, rfl⟩ := hmetadata
  have hne : "deployment_run_id" ≠ "deployment_id" := by decide
  simp only [Dict.update, List.foldl_cons, List.foldl_nil]
  rw [Dict.get_set_other _ hne, Dict.get_set_same]

theorem maybeCreateDeploymentSession_deployment
    {data : Dict} {session : DeploymentSession}
    (hsession : maybeCreateDeploymentSession context draws surroundings held data
      runInput = .ok (some session)) :
    Dict.get session.metadata "deployment_id" = .str held.id := by
  unfold maybeCreateDeploymentSession at hsession
  dsimp only at hsession
  split at hsession
  · simp only [bind_eq_ok, pure_eq_ok, session_lift_eq_ok, Option.some.injEq] at hsession
    obtain ⟨⟨agent, version⟩, -, environment, -, created, hcreated, rfl⟩ := hsession
    unfold createRunSession at hcreated
    simp only [bind_eq_ok, pure_eq_ok] at hcreated
    obtain ⟨metadata, hmetadata, vaultIds, -, title, -, given, -, resources, -, events, -,
      rfl⟩ := hcreated
    exact runSessionMetadata_deployment hmetadata
  · cases hsession

theorem runDeploymentResource_eq_ok
    (hrun : runDeploymentResource context draws surroundings creator held runInput =
      .ok outcome) :
    RunOutcome.Of context draws creator held runInput outcome := by
  unfold runDeploymentResource at hrun
  simp only [bind_eq_ok, pure_eq_ok, lift_eq_ok, raiseIf_eq_ok,
    ensureDeploymentMutable_eq_ok] at hrun
  obtain ⟨-, hopen, -, htrigger, -, -, data, hdata, run, hcreated, ⟨completed, session⟩,
    hcompleted, rfl⟩ := hrun
  unfold createRun at hcreated
  simp only [bind_eq_ok, pure_eq_ok] at hcreated
  obtain ⟨attempt, -, trigger, -, rfl⟩ := hcreated
  have htriggered : isDeploymentPaused held = false ∨
    runTrigger runInput = .str "manual" := by
    by_cases hpaused : isDeploymentPaused held = true
    · exact .inr (not_not.mp fun hne => htrigger ⟨hpaused, hne⟩)
    · exact .inl (Bool.not_eq_true _ ▸ hpaused)
  unfold completeRun at hcompleted
  split at hcompleted
  next =>
    cases hcompleted
    exact ⟨hopen, htriggered, hdata, rfl, rfl, rfl, rfl, rfl, rfl, rfl, by simp⟩
  next made hmade =>
    cases hcompleted
    have htriggerField : ∀ fields : Dict, Dict.get (Dict.set fields "session_id"
        (.str made.id)) "trigger" = Dict.get fields "trigger" :=
      fun fields => Dict.get_set_other _ (by decide)
    have hscheduled : ∀ fields : Dict, Dict.get (Dict.set fields "session_id"
        (.str made.id)) "scheduled_for" = Dict.get fields "scheduled_for" :=
      fun fields => Dict.get_set_other _ (by decide)
    refine ⟨hopen, htriggered, hdata, rfl, rfl, rfl, rfl, rfl, ?_, ?_, ?_⟩
    · exact (htriggerField _).trans rfl
    · exact (hscheduled _).trans rfl
    · intro session hsession
      obtain rfl := Option.some.inj hsession
      exact maybeCreateDeploymentSession_deployment hmade
  next errorType message hmade =>
    cases hcompleted
    exact ⟨hopen, htriggered, hdata, rfl, rfl, rfl, rfl, rfl, rfl, rfl, by simp⟩
  next => cases hcompleted

end

/-! ## Updates of a row -/

def updatedColumns (held : Deployment) (data : Dict) (name : Option String)
    (status : Option DeploymentStatus) : DeploymentColumns where
  data := if Dict.equal data held.data then none else some data
  name := if name = held.name then none else name
  status := if status = some held.status then none else status

def archivedColumns (held : Deployment) (now : Time) : DeploymentColumns where
  archivedAt := some now
  status := if held.status = .archived then none else some .archived

/-- The data and the status which an update, a pause or its end computes. -/
inductive NewDeploymentData (settings : DeploymentSettings) (call : DeploymentCall)
    (held : Deployment) : Dict → DeploymentStatus → Prop
  | updated (workspaceId : String) (surroundings : Surroundings) (draws : RunDraws)
      (body : Dict) (data : Dict) (status : DeploymentStatus)
      (hcall : call = .request workspaceId surroundings draws (.update held.id body))
      (hdata : updatedDeploymentData (settings.context workspaceId) draws surroundings
        held.data body = .ok (data, status)) :
      NewDeploymentData settings call held data status
  | paused : NewDeploymentData settings call held (pausedData held.data) .paused
  | unpaused : NewDeploymentData settings call held (unpausedData held.data) .active

/-- What a call can write over the row that it has read. -/
inductive DeploymentChange (settings : DeploymentSettings) (call : DeploymentCall)
    (view : DeploymentView) (held : Deployment) (columns : DeploymentColumns) : Prop
  | written (data : Dict) (status : DeploymentStatus) (name : Option String)
      (hopen : held.archivedAt = none)
      (hdata : NewDeploymentData settings call held data status)
      (hcolumns : columns = updatedColumns held data name (some status))
  | archived (now : Time) (hcolumns : columns = archivedColumns held now)
  | ran (outcome : RunOutcome) (hmakes : call.Makes settings view held outcome)
      (hcolumns : columns = updatedColumns held outcome.data none none)

section

variable {settings : DeploymentSettings} {call : DeploymentCall} {view : DeploymentView}
  {held : Deployment}

theorem DeploymentCall.Makes.mem_view
    {outcome : RunOutcome} (hmakes : call.Makes settings view held outcome) :
    held ∈ (view 0).deployments := by
  cases hmakes with
  | requested workspaceId surroundings draws body hcall hheld hrun => exact hheld
  | due tick query hcall hlisted hvisit => exact (mem_listDeployments hlisted).1

/-- A new row is that of an accepted creation. -/
theorem DeploymentWrite.creation
    {row : Deployment}
    (hwrite : DeploymentWrite settings call view (.insertDeployment row)) :
    ∃ workspaceId surroundings draws body,
      call = .request workspaceId surroundings draws (.create body) ∧
        createdDeploymentData (settings.context workspaceId) draws surroundings body =
          .ok (row.data, row.status) ∧ row.archivedAt = none := by
  cases hwrite with
  | created workspaceId surroundings draws body row hcall hdata hopen =>
      exact ⟨workspaceId, surroundings, draws, body, hcall, hdata, hopen⟩
  | ran held outcome statement hmakes hmem =>
      have hnone := outcome_newDeployment hmem
      cases hnone

theorem DeploymentWrite.change
    {deploymentId : String} {columns : DeploymentColumns}
    (hwrite : DeploymentWrite settings call view
      (.updateDeployment deploymentId columns)) :
    ∃ held ∈ (view 0).deployments, held.id = deploymentId ∧
      DeploymentChange settings call view held columns := by
  generalize hstatement : DeploymentStatement.updateDeployment deploymentId columns =
    statement at hwrite
  cases hwrite with
  | created => cases hstatement
  | updated workspaceId surroundings draws body held data status name hcall hheld hopen
      hdata =>
      obtain ⟨hid, hcolumns⟩ := DeploymentStatement.updateDeployment.inj hstatement
      exact ⟨held, hheld, hid.symm, .written data status name hopen
        (.updated workspaceId surroundings draws body data status hcall hdata) hcolumns⟩
  | paused held hheld hopen =>
      obtain ⟨hid, hcolumns⟩ := DeploymentStatement.updateDeployment.inj hstatement
      exact ⟨held, hheld, hid.symm, .written _ _ none hopen .paused hcolumns⟩
  | unpaused held hheld hopen =>
      obtain ⟨hid, hcolumns⟩ := DeploymentStatement.updateDeployment.inj hstatement
      exact ⟨held, hheld, hid.symm, .written _ _ none hopen .unpaused hcolumns⟩
  | archived held now hheld =>
      obtain ⟨hid, hcolumns⟩ := DeploymentStatement.updateDeployment.inj hstatement
      exact ⟨held, hheld, hid.symm, .archived now hcolumns⟩
  | ran held outcome statement hmakes hmem =>
      have hheld := hmakes.mem_view
      unfold RunOutcome.statements at hmem
      rcases List.mem_cons.mp hmem with hmem | hmem
      · rw [← hstatement] at hmem
        obtain ⟨hid, hcolumns⟩ := DeploymentStatement.updateDeployment.inj hmem
        exact ⟨held, hheld, hid.symm, .ran outcome hmakes hcolumns⟩
      · subst hstatement
        rcases List.mem_cons.mp hmem with hmem | hmem
        · cases hmem
        · cases hsession : outcome.session <;> simp [hsession] at hmem

theorem Tick.visit_eq_ran
    {tick : Tick} {runs : List DeploymentRun} {outcome : RunOutcome}
    (hvisit : tick.visit settings runs held = .ran outcome) :
    ∃ dueAt, scheduledDeploymentDueAt (settings.context tick.workspaceId) runs held
        tick.now = .ok (some dueAt) ∧
      tick.runDue settings held dueAt = .ok outcome := by
  unfold Tick.visit at hvisit
  split at hvisit
  · cases hvisit
  · cases hvisit
  next dueAt hdue =>
    refine ⟨dueAt, hdue, ?_⟩
    split at hvisit
    next made hmade =>
      cases hvisit
      exact hmade
    all_goals cases hvisit

/-- What is known of a run that a call makes. -/
theorem DeploymentCall.Makes.outcome
    {outcome : RunOutcome} (hmakes : call.Makes settings view held outcome) :
    ∃ workspaceId draws creator runInput,
      RunOutcome.Of
        (settings.context workspaceId) draws creator held runInput outcome := by
  cases hmakes with
  | requested workspaceId surroundings draws body hcall hheld hrun =>
      exact ⟨workspaceId, draws, .request, body, runDeploymentResource_eq_ok hrun⟩
  | due tick query hcall hlisted hvisit =>
      obtain ⟨dueAt, -, hrun⟩ := Tick.visit_eq_ran hvisit
      exact ⟨tick.workspaceId, _, .tick, _, runDeploymentResource_eq_ok hrun⟩

end

end ManagedAgents
