import ManagedAgents.DeploymentWrites

/-!
# Rounds of a tick

A tick which no other call disturbs makes one round for each listed deployment.  The
rounds that run write one after the other, until one of them ends the tick.
-/

namespace ManagedAgents

open Fallible NewestPage

/-- The round of a deployment in a tick on these rows. -/
def Tick.round (settings : DeploymentSettings) (tick : Tick) (db : DeploymentDb)
    (deployment : Deployment) : Visit :=
  tick.visit settings db.runs deployment

/-- The round ends the tick with an exception. -/
def Visit.stops : Visit → Bool
  | .skipped | .ran _ => false
  | .archived _ | .raised _ => true

def Visit.isRan : Visit → Bool
  | .ran _ => true
  | .skipped | .archived _ | .raised _ => false

/-- What a round writes that does not end the tick. -/
def Visit.statements (deployment : Deployment) : Visit → List DeploymentStatement
  | .ran outcome => outcome.statements deployment
  | .skipped | .archived _ | .raised _ => []

def Tick.written (settings : DeploymentSettings) (tick : Tick) (db : DeploymentDb)
    (deployments : List Deployment) : List DeploymentStatement :=
  deployments.flatMap fun deployment =>
    (tick.round settings db deployment).statements deployment

/-- The rounds which run. -/
def Tick.ranCount (settings : DeploymentSettings) (tick : Tick) (db : DeploymentDb)
    (deployments : List Deployment) : ℕ :=
  deployments.countP fun deployment => (tick.round settings db deployment).isRan

/-- The rounds which run or end the tick. -/
def Tick.dueCount (settings : DeploymentSettings) (tick : Tick) (db : DeploymentDb)
    (deployments : List Deployment) : ℕ :=
  deployments.countP fun deployment =>
    (tick.round settings db deployment).isRan || (tick.round settings db deployment).stops

section

variable {settings : DeploymentSettings} {tick : Tick} {db : DeploymentDb}
  {deployments : List Deployment}

theorem Tick.ranCount_le_dueCount :
    tick.ranCount settings db deployments ≤ tick.dueCount settings db deployments :=
  List.countP_mono_left fun deployment _ hran => by simp [hran]

@[simp] theorem Tick.written_cons (deployment : Deployment) :
    tick.written settings db (deployment :: deployments) =
      (tick.round settings db deployment).statements deployment ++
        tick.written settings db deployments :=
  List.flatMap_cons

theorem Tick.ranCount_cons (deployment : Deployment) :
    tick.ranCount settings db (deployment :: deployments) =
      tick.ranCount settings db deployments +
        if (tick.round settings db deployment).isRan then 1 else 0 :=
  List.countP_cons

theorem Tick.written_of_ranCount_zero
    (hzero : tick.ranCount settings db deployments = 0) :
    tick.written settings db deployments = [] := by
  apply List.flatMap_eq_nil_iff.mpr
  intro deployment hdeployment
  have hidle := List.countP_eq_zero.mp hzero deployment hdeployment
  cases hround : tick.round settings db deployment with
  | ran outcome => simp [hround, Visit.isRan] at hidle
  | skipped | archived error | raised error => rfl

section

variable {index created : ℕ} {written : List DeploymentStatement}
  {deployment : Deployment}

theorem tickLoop_full (hfull : tick.limit ≤ created) :
    (tickLoop settings tick (fun _ => db) index created written deployments).statements =
      written := by
  cases deployments with
  | nil => rfl
  | cons first rest => rw [tickLoop, if_pos hfull]

theorem tickLoop_skipped
    (hopen : created < tick.limit)
    (hround : tick.round settings db deployment = .skipped) :
    tickLoop settings tick (fun _ => db) index created written
      (deployment :: deployments) =
      tickLoop settings tick (fun _ => db) (index + 1) created written deployments := by
  have hvisit : tick.visit settings ((fun _ => db) (index + 1)).runs deployment =
      .skipped := hround
  rw [tickLoop, if_neg (not_le.mpr hopen), hvisit]

theorem tickLoop_ran
    {outcome : RunOutcome} (hopen : created < tick.limit)
    (hround : tick.round settings db deployment = .ran outcome) :
    tickLoop settings tick (fun _ => db) index created written
      (deployment :: deployments) =
      tickLoop settings tick (fun _ => db) (index + 1) (created + 1)
        (written ++ outcome.statements deployment) deployments := by
  have hvisit : tick.visit settings ((fun _ => db) (index + 1)).runs deployment =
      .ran outcome := hround
  rw [tickLoop, if_neg (not_le.mpr hopen), hvisit]

/-- The archiving of a deployment commits what the rounds before have written. -/
theorem tickLoop_archived
    {error : HTTPException} (hopen : created < tick.limit)
    (hround : tick.round settings db deployment = .archived error) :
    (tickLoop settings tick (fun _ => db) index created written
      (deployment :: deployments)).statements =
        written ++ [tick.archiveRow deployment] := by
  have hvisit : tick.visit settings ((fun _ => db) (index + 1)).runs deployment =
      .archived error := hround
  rw [tickLoop, if_neg (not_le.mpr hopen), hvisit]

/-- An exception takes back what the rounds before have written. -/
theorem tickLoop_raised
    {error : HTTPException} (hopen : created < tick.limit)
    (hround : tick.round settings db deployment = .raised error) :
    (tickLoop settings tick (fun _ => db) index created written
      (deployment :: deployments)).statements = [] := by
  have hvisit : tick.visit settings ((fun _ => db) (index + 1)).runs deployment =
      .raised error := hround
  rw [tickLoop, if_neg (not_le.mpr hopen), hvisit]

theorem tickLoop_error
    (hopen : created < tick.limit)
    (hstops : (tick.round settings db deployment).stops = true) :
    (tickLoop settings tick (fun _ => db) index created written
      (deployment :: deployments)).error ≠ none := by
  have hvisit : tick.visit settings ((fun _ => db) (index + 1)).runs deployment =
      tick.round settings db deployment := rfl
  rw [tickLoop, if_neg (not_le.mpr hopen), hvisit]
  cases hround : tick.round settings db deployment with
  | archived error | raised error => simp
  | skipped | ran outcome => simp [hround, Visit.stops] at hstops

end

/-- Without a round that ends it the tick raises nothing. -/
theorem tickLoop_completes
    (hnone : ∀ deployment ∈ deployments,
      (tick.round settings db deployment).stops = false)
    {index created : ℕ} {written : List DeploymentStatement} :
    (tickLoop settings tick (fun _ => db) index created written deployments).error =
      none := by
  induction deployments generalizing index created written with
  | nil => rfl
  | cons deployment rest ih =>
      obtain ⟨hfirst, hrest⟩ := List.forall_mem_cons.mp hnone
      have hvisit : tick.visit settings ((fun _ => db) (index + 1)).runs deployment =
          tick.round settings db deployment := rfl
      rw [tickLoop, hvisit]
      split
      · rfl
      · cases hround : tick.round settings db deployment with
        | skipped | ran outcome => exact ih hrest
        | archived error | raised error => simp [hround, Visit.stops] at hfirst

/-- No round ends the tick: all of them write. -/
theorem tickLoop_of_no_stop
    (hnone : ∀ deployment ∈ deployments,
      (tick.round settings db deployment).stops = false)
    {index created : ℕ} {written : List DeploymentStatement}
    (hroom : created + tick.ranCount settings db deployments ≤ tick.limit) :
    (tickLoop settings tick (fun _ => db) index created written deployments).statements =
      written ++ tick.written settings db deployments := by
  induction deployments generalizing index created written with
  | nil => exact (List.append_nil _).symm
  | cons deployment rest ih =>
      obtain ⟨hfirst, hrest⟩ := List.forall_mem_cons.mp hnone
      rcases Nat.lt_or_ge created tick.limit with hopen | hfull
      · rw [Tick.ranCount_cons] at hroom
        rw [Tick.written_cons]
        cases hround : tick.round settings db deployment with
        | skipped =>
            rw [tickLoop_skipped hopen hround]
            exact ih hrest (by omega)
        | ran outcome =>
            simp only [hround, Visit.isRan, if_true] at hroom
            rw [tickLoop_ran hopen hround, ih hrest (by omega), List.append_assoc]
            rfl
        | archived error | raised error => simp [hround, Visit.stops] at hfirst
      · -- No later round runs, or there would be no room for it.
        rw [tickLoop_full hfull, Tick.written_of_ranCount_zero (by omega),
          List.append_nil]

/-- The rounds before the first that ends the tick. -/
theorem tickLoop_append
    {front back : List Deployment}
    (hnone : ∀ deployment ∈ front, (tick.round settings db deployment).stops = false)
    {index created : ℕ} {written : List DeploymentStatement}
    (hroom : created + tick.ranCount settings db front < tick.limit) :
    tickLoop settings tick (fun _ => db) index created written (front ++ back) =
      tickLoop settings tick (fun _ => db) (index + front.length)
        (created + tick.ranCount settings db front)
        (written ++ tick.written settings db front) back := by
  induction front generalizing index created written with
  | nil => exact congrArg (tickLoop settings tick _ _ _ · _) (List.append_nil _).symm
  | cons deployment rest ih =>
      obtain ⟨hfirst, hrest⟩ := List.forall_mem_cons.mp hnone
      rw [Tick.ranCount_cons] at hroom
      rw [List.cons_append, Tick.written_cons, Tick.ranCount_cons, List.length_cons]
      have hopen : created < tick.limit := by omega
      cases hround : tick.round settings db deployment with
      | skipped =>
          rw [tickLoop_skipped hopen hround, ih hrest (by omega)]
          congr 1
          omega
      | ran outcome =>
          simp only [hround, Visit.isRan, if_true] at hroom
          rw [tickLoop_ran hopen hround, ih hrest (by omega), List.append_assoc]
          congr 1
          · omega
          · simp only [Visit.isRan, if_true]
            omega
      | archived error | raised error => simp [hround, Visit.stops] at hfirst

end

/-! ## What a tick creates for a deployment -/

def runsFor (statements : List DeploymentStatement) (deploymentId : String) :
    List DeploymentRun :=
  (statements.filterMap DeploymentStatement.newRun).filter fun run =>
    run.deploymentId = deploymentId

def sessionsFor (statements : List DeploymentStatement) (deploymentId : String) :
    List DeploymentSession :=
  (statements.filterMap DeploymentStatement.newSession).filter fun session =>
    Dict.get session.metadata "deployment_id" = .str deploymentId

section

variable {settings : DeploymentSettings} {tick : Tick} {db : DeploymentDb}
  {deployment : Deployment} {deployments : List Deployment} {deploymentId : String}

theorem runsFor_append (front back : List DeploymentStatement) :
    runsFor (front ++ back) deploymentId =
      runsFor front deploymentId ++ runsFor back deploymentId := by
  simp [runsFor]

theorem sessionsFor_append (front back : List DeploymentStatement) :
    sessionsFor (front ++ back) deploymentId =
      sessionsFor front deploymentId ++ sessionsFor back deploymentId := by
  simp [sessionsFor]

theorem Tick.round_eq_ran
    {outcome : RunOutcome} (hround : tick.round settings db deployment = .ran outcome) :
    ∃ dueAt, RunOutcome.Of (settings.context tick.workspaceId) (tick.draws deployment.id)
      .tick deployment (tickInput settings.calendar dueAt) outcome := by
  obtain ⟨dueAt, -, hrun⟩ := Tick.visit_eq_ran hround
  exact ⟨dueAt, runDeploymentResource_eq_ok hrun⟩

theorem runsFor_round :
    runsFor ((tick.round settings db deployment).statements deployment) deploymentId =
      match tick.round settings db deployment with
      | .ran outcome => if deployment.id = deploymentId then [outcome.run] else []
      | .skipped | .archived _ | .raised _ => [] := by
  cases hround : tick.round settings db deployment with
  | ran outcome =>
      obtain ⟨dueAt, hof⟩ := Tick.round_eq_ran hround
      simp only [Visit.statements, runsFor, outcome_newRun]
      simp [List.filter_cons, hof.deployment]
  | skipped | archived error | raised error => rfl

theorem sessionsFor_round :
    sessionsFor ((tick.round settings db deployment).statements deployment) deploymentId =
      match tick.round settings db deployment with
      | .ran outcome =>
          if deployment.id = deploymentId then outcome.session.toList else []
      | .skipped | .archived _ | .raised _ => [] := by
  cases hround : tick.round settings db deployment with
  | ran outcome =>
      obtain ⟨dueAt, hof⟩ := Tick.round_eq_ran hround
      simp only [Visit.statements, sessionsFor, outcome_newSession]
      cases hsession : outcome.session with
      | none => simp
      | some session =>
          have hmetadata := hof.session session hsession
          simp [List.filter_cons, hmetadata]
  | skipped | archived error | raised error => rfl

/-- The rounds of other deployments create nothing for this one. -/
theorem createdFor_written_of_notMem
    (hnone : ∀ other ∈ deployments, other.id ≠ deploymentId) :
    runsFor (tick.written settings db deployments) deploymentId = [] ∧
      sessionsFor (tick.written settings db deployments) deploymentId = [] := by
  induction deployments with
  | nil => exact ⟨rfl, rfl⟩
  | cons first rest ih =>
      obtain ⟨hfirst, hrest⟩ := List.forall_mem_cons.mp hnone
      obtain ⟨hruns, hsessions⟩ := ih hrest
      rw [Tick.written_cons, runsFor_append, sessionsFor_append, hruns, hsessions,
        runsFor_round, sessionsFor_round]
      cases tick.round settings db first <;> simp [hfirst]

/-- The rounds of a tick create for a deployment what its own round does. -/
theorem createdFor_written
    (hids : (deployments.map Deployment.id).Nodup) (hmem : deployment ∈ deployments) :
    runsFor (tick.written settings db deployments) deployment.id =
        runsFor ((tick.round settings db deployment).statements deployment) deployment.id ∧
      sessionsFor (tick.written settings db deployments) deployment.id =
        sessionsFor ((tick.round settings db deployment).statements deployment)
          deployment.id := by
  induction deployments with
  | nil => cases hmem
  | cons first rest ih =>
      rw [List.map_cons, List.nodup_cons] at hids
      rw [Tick.written_cons, runsFor_append, sessionsFor_append]
      rcases List.mem_cons.mp hmem with rfl | hmem
      · obtain ⟨hruns, hsessions⟩ := @createdFor_written_of_notMem settings tick db rest
          deployment.id fun other hother hsame =>
            hids.1 (List.mem_map.mpr ⟨other, hother, hsame⟩)
        rw [hruns, hsessions, List.append_nil, List.append_nil]
        exact ⟨rfl, rfl⟩
      · obtain ⟨hruns, hsessions⟩ := ih hids.2 hmem
        have hne : first.id ≠ deployment.id := fun hsame =>
          hids.1 (List.mem_map.mpr ⟨deployment, hmem, hsame.symm⟩)
        obtain ⟨hfirstRuns, hfirstSessions⟩ :=
          @createdFor_written_of_notMem settings tick db
          [first] deployment.id (by simpa using hne)
        rw [Tick.written_cons, runsFor_append, List.append_eq_nil_iff] at hfirstRuns
        rw [Tick.written_cons, sessionsFor_append,
          List.append_eq_nil_iff] at hfirstSessions
        rw [hfirstRuns.1, hfirstSessions.1, hruns, hsessions]
        exact ⟨rfl, rfl⟩

end

/-! ## The first failure -/

section

variable {settings : DeploymentSettings} {tick : Tick} {db : DeploymentDb}
  {deployment : Deployment} {deployments : List Deployment}

/-- The first round that ends the tick, if there is one, archives its deployment and comes
after this one. -/
def Tick.Survives (settings : DeploymentSettings) (tick : Tick) (db : DeploymentDb)
    (deployments : List Deployment) (deployment : Deployment) : Prop :=
  ∀ front failing back, deployments = front ++ failing :: back →
    (∀ earlier ∈ front, (tick.round settings db earlier).stops = false) →
    (tick.round settings db failing).stops = true →
    (∃ error, tick.round settings db failing = .archived error) ∧ deployment ∈ front

/-- The rounds up to the first one that ends the tick. -/
theorem first_stop
    (settings : DeploymentSettings) (tick : Tick) (db : DeploymentDb)
    (deployments : List Deployment) :
    (∀ deployment ∈ deployments, (tick.round settings db deployment).stops = false) ∨
      ∃ front failing back, deployments = front ++ failing :: back ∧
        (∀ deployment ∈ front, (tick.round settings db deployment).stops = false) ∧
        (tick.round settings db failing).stops = true := by
  induction deployments with
  | nil => exact .inl (by simp)
  | cons first rest ih =>
      cases hfirst : (tick.round settings db first).stops with
      | true => exact .inr ⟨[], first, rest, rfl, by simp, hfirst⟩
      | false =>
          rcases ih with hnone | ⟨front, failing, back, rfl, hfront, hfailing⟩
          · exact .inl (List.forall_mem_cons.mpr ⟨hfirst, hnone⟩)
          · exact .inr ⟨first :: front, failing, back, rfl,
              List.forall_mem_cons.mpr ⟨hfirst, hfront⟩, hfailing⟩

theorem ranCount_lt_of_stop
    {front back : List Deployment} {failing : Deployment}
    (hfailing : (tick.round settings db failing).stops = true)
    (hroom : tick.dueCount settings db (front ++ failing :: back) ≤ tick.limit) :
    0 + tick.ranCount settings db front < tick.limit := by
  have hle : tick.ranCount settings db front ≤ tick.dueCount settings db front :=
    Tick.ranCount_le_dueCount
  unfold Tick.dueCount at hroom hle
  rw [List.countP_append, List.countP_cons_of_pos (by simp [hfailing])] at hroom
  omega

/-- What the tick has written when a round archives its deployment. -/
theorem tick_of_archived
    {front back : List Deployment} {failing : Deployment} {error : HTTPException}
    (hnone : ∀ deployment ∈ front, (tick.round settings db deployment).stops = false)
    (harchived : tick.round settings db failing = .archived error)
    (hroom : tick.dueCount settings db (front ++ failing :: back) ≤ tick.limit) :
    (tickLoop settings tick (fun _ => db) 0 0 [] (front ++ failing :: back)).statements =
      tick.written settings db front ++ [tick.archiveRow failing] := by
  have hopen := ranCount_lt_of_stop (by rw [harchived]; rfl) hroom
  rw [tickLoop_append hnone hopen, tickLoop_archived hopen harchived, List.nil_append]

theorem tick_of_raised
    {front back : List Deployment} {failing : Deployment} {error : HTTPException}
    (hnone : ∀ deployment ∈ front, (tick.round settings db deployment).stops = false)
    (hraised : tick.round settings db failing = .raised error)
    (hroom : tick.dueCount settings db (front ++ failing :: back) ≤ tick.limit) :
    (tickLoop settings tick (fun _ => db) 0 0 [] (front ++ failing :: back)).statements =
      [] := by
  have hopen := ranCount_lt_of_stop (by rw [hraised]; rfl) hroom
  rw [tickLoop_append hnone hopen, tickLoop_raised hopen hraised]

theorem createdFor_archiveRow (written : List DeploymentStatement) (failing : Deployment)
    (deploymentId : String) :
    runsFor (written ++ [tick.archiveRow failing]) deploymentId =
        runsFor written deploymentId ∧
      sessionsFor (written ++ [tick.archiveRow failing]) deploymentId =
        sessionsFor written deploymentId := by
  rw [runsFor_append, sessionsFor_append]
  exact ⟨List.append_nil _, List.append_nil _⟩

/-- A round that does not run creates nothing. -/
theorem createdFor_of_idle
    (hids : (deployments.map Deployment.id).Nodup) (hmem : deployment ∈ deployments)
    (hidle : (tick.round settings db deployment).isRan = false)
    {front : List Deployment} (hfront : front.Sublist deployments) :
    runsFor (tick.written settings db front) deployment.id = [] ∧
      sessionsFor (tick.written settings db front) deployment.id = [] := by
  have hempty : (tick.round settings db deployment).statements deployment = [] := by
    cases hround : tick.round settings db deployment with
    | ran outcome => simp [hround, Visit.isRan] at hidle
    | skipped | archived error | raised error => rfl
  by_cases hown : deployment ∈ front
  · obtain ⟨hruns, hsessions⟩ :=
      @createdFor_written settings tick db _ _ (hids.sublist (hfront.map _)) hown
    rw [hruns, hsessions, hempty]
    exact ⟨rfl, rfl⟩
  · refine createdFor_written_of_notMem fun other hother hsame => hown ?_
    obtain rfl := List.inj_on_of_nodup_map hids (hfront.subset hother) hmem hsame
    exact hother

/-- A tick creates for a deployment what its round does, if no failure takes it away. -/
theorem createdFor_of_survives
    (hids : (deployments.map Deployment.id).Nodup)
    (hroom : tick.dueCount settings db deployments ≤ tick.limit)
    (hmem : deployment ∈ deployments)
    (hsurvives : (tick.round settings db deployment).isRan = true →
      tick.Survives settings db deployments deployment) :
    runsFor (tickLoop settings tick (fun _ => db) 0 0 [] deployments).statements
          deployment.id =
        runsFor ((tick.round settings db deployment).statements deployment) deployment.id ∧
      sessionsFor (tickLoop settings tick (fun _ => db) 0 0 [] deployments).statements
          deployment.id =
        sessionsFor ((tick.round settings db deployment).statements deployment)
          deployment.id := by
  have hround : (tick.round settings db deployment).isRan = false →
      runsFor ((tick.round settings db deployment).statements deployment) deployment.id =
          [] ∧
        sessionsFor ((tick.round settings db deployment).statements deployment)
          deployment.id = [] := by
    intro hidle
    have hcreated := createdFor_of_idle hids hmem hidle (List.singleton_sublist.mpr hmem)
    rwa [Tick.written_cons, show tick.written settings db [] = [] from rfl,
      List.append_nil] at hcreated
  rcases first_stop settings tick db deployments with
    hnone | ⟨front, failing, back, hsplit, hfront, hfailing⟩
  · have hran : 0 + tick.ranCount settings db deployments ≤ tick.limit := by
      have hle := @Tick.ranCount_le_dueCount settings tick db deployments
      omega
    rw [tickLoop_of_no_stop hnone hran, List.nil_append]
    exact createdFor_written hids hmem
  · have hsublist : front.Sublist deployments := by
      rw [hsplit]
      exact List.sublist_append_left _ _
    cases hran : (tick.round settings db deployment).isRan with
    | false =>
        obtain ⟨hruns, hsessions⟩ := hround hran
        obtain ⟨hfrontRuns, hfrontSessions⟩ := createdFor_of_idle hids hmem hran hsublist
        rw [hruns, hsessions, hsplit]
        rw [hsplit] at hroom
        cases hstop : tick.round settings db failing with
        | archived error =>
            rw [tick_of_archived hfront hstop hroom]
            obtain ⟨harchiveRuns, harchiveSessions⟩ := @createdFor_archiveRow tick
              (tick.written settings db front) failing deployment.id
            exact ⟨harchiveRuns.trans hfrontRuns, harchiveSessions.trans hfrontSessions⟩
        | raised error =>
            rw [tick_of_raised hfront hstop hroom]
            exact ⟨rfl, rfl⟩
        | skipped | ran outcome => simp [hstop, Visit.stops] at hfailing
    | true =>
        obtain ⟨⟨error, harchived⟩, hown⟩ :=
          hsurvives hran front failing back hsplit hfront hfailing
        obtain ⟨hruns, hsessions⟩ := @createdFor_written settings tick db _ _
          (hids.sublist (hsublist.map _)) hown
        rw [hsplit] at hroom
        rw [hsplit, tick_of_archived hfront harchived hroom]
        obtain ⟨harchiveRuns, harchiveSessions⟩ := @createdFor_archiveRow tick
          (tick.written settings db front) failing deployment.id
        exact ⟨harchiveRuns.trans hruns, harchiveSessions.trans hsessions⟩

/-- A deployment for which the tick creates a run was not lost to a failure. -/
theorem survives_of_runs
    (hids : (deployments.map Deployment.id).Nodup)
    (hroom : tick.dueCount settings db deployments ≤ tick.limit)
    (hmem : deployment ∈ deployments)
    (hruns : runsFor (tickLoop settings tick (fun _ => db) 0 0 [] deployments).statements
      deployment.id ≠ []) :
    tick.Survives settings db deployments deployment := by
  intro front failing back hsplit hfront hfailing
  rw [hsplit] at hroom hruns hmem hids
  cases hstop : tick.round settings db failing with
  | raised error => exact absurd (by rw [tick_of_raised hfront hstop hroom]; rfl) hruns
  | skipped | ran outcome => simp [hstop, Visit.stops] at hfailing
  | archived error =>
      refine ⟨⟨error, rfl⟩, ?_⟩
      by_contra hnot
      have hother : ∀ other ∈ front, other.id ≠ deployment.id := by
        intro other hother hsame
        obtain rfl := List.inj_on_of_nodup_map hids (List.mem_append_left _ hother) hmem
          hsame
        exact hnot hother
      rw [tick_of_archived hfront hstop hroom, (createdFor_archiveRow _ _ _).1] at hruns
      exact hruns (createdFor_written_of_notMem hother).1

end

end ManagedAgents
