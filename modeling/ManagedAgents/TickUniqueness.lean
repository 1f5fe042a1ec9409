import ManagedAgents.DeploymentStatuses
import ManagedAgents.DeploymentWrites

/-!
# One run for each instant

Ticks make at most one run of a deployment for each instant, exactly if a tick which
commits a run has read the runs that were made for the instant before.
-/

namespace ManagedAgents

open Fallible LabelledRuns NewestPage ReadCommitted

/-! ## Statement -/

/-- A run of the deployment for the instant which a tick has made. -/
def isTickRun (calendar : Calendar) (deploymentId : String) (instant : Time)
    (run : DeploymentRun) : Bool :=
  run.creator = .tick && run.deploymentId = deploymentId &&
    isScheduledFor calendar instant run

def OnePerInstant (calendar : Calendar) (db : DeploymentDb) : Prop :=
  ∀ deploymentId instant,
    (db.runs.filter (isTickRun calendar deploymentId instant)).length ≤ 1

/-- The tick makes this run of the listed deployment at the position. -/
structure Tick.Creates (settings : DeploymentSettings) (tick : Tick)
    (view : DeploymentView) (position : ℕ) (deployment : Deployment)
    (outcome : RunOutcome) : Prop where
  listed : (listDeployments (view 0) tick.workspaceId)[position]? = some deployment
  visit : tick.visit settings (view (position + 1)).runs deployment = .ran outcome
  inserted : outcome.run ∈ (runDueScheduledDeployments settings tick view).statements.filterMap
    DeploymentStatement.newRun

/-- The committed runs for an instant which a tick makes a run for are on the page of runs
which the tick has read. -/
def SeesTickRuns (settings : DeploymentSettings) (call : DeploymentCall)
    (view : DeploymentView) (current : DeploymentDb) : Prop :=
  match call with
  | .request .. => True
  | .scheduled tick =>
      ∀ position deployment outcome,
        tick.Creates settings view position deployment outcome →
        ∀ instant, isScheduledFor settings.calendar instant outcome.run = true →
          ∀ earlier ∈ current.runs,
            isTickRun settings.calendar deployment.id instant earlier = true →
            earlier ∈ listDeploymentRuns (view (position + 1)).runs tick.workspaceId
              deployment.id

/-! ## New runs of a tick -/

section

variable {settings : DeploymentSettings} {tick : Tick} {view : DeploymentView}

theorem tickLoop_newRun
    {index created : ℕ} {written : List DeploymentStatement}
    {deployments : List Deployment} {made : DeploymentRun}
    (hmade : made ∈ (tickLoop settings tick view index created written
      deployments).statements.filterMap DeploymentStatement.newRun) :
    made ∈ written.filterMap DeploymentStatement.newRun ∨
      ∃ position deployment outcome, deployments[position]? = some deployment ∧
        tick.visit settings (view (index + position + 1)).runs deployment = .ran outcome ∧
        made = outcome.run := by
  induction deployments generalizing index created written with
  | nil => exact .inl hmade
  | cons deployment rest ih =>
      have hlater : ∀ {written : List DeploymentStatement} {created : ℕ},
          made ∈ (tickLoop settings tick view (index + 1) created written
            rest).statements.filterMap DeploymentStatement.newRun →
          made ∈ written.filterMap DeploymentStatement.newRun ∨
            ∃ position held outcome, (deployment :: rest)[position]? = some held ∧
              tick.visit settings (view (index + position + 1)).runs held =
                .ran outcome ∧ made = outcome.run := by
        intro written created hmem
        rcases ih hmem with hbefore | ⟨position, held, outcome, hheld, hvisit, hsame⟩
        · exact .inl hbefore
        · refine .inr ⟨position + 1, held, outcome, hheld, ?_, hsame⟩
          rwa [show index + (position + 1) + 1 = index + 1 + position + 1 by omega]
      rw [tickLoop] at hmade
      split at hmade
      · exact .inl hmade
      · split at hmade
        next => exact hlater hmade
        next outcome hvisit =>
          rcases hlater hmade with hbefore | hnew
          · rw [List.filterMap_append, outcome_newRun, List.mem_append,
              List.mem_singleton] at hbefore
            rcases hbefore with hbefore | rfl
            · exact .inl hbefore
            · exact .inr ⟨0, deployment, outcome, rfl, hvisit, rfl⟩
          · exact .inr hnew
        next error hvisit =>
          rw [List.filterMap_append, List.mem_append] at hmade
          rcases hmade with hbefore | hnone
          · exact .inl hbefore
          · cases hnone
        next error hvisit => cases hmade

theorem Tick.visit_ran_deployment
    {runs : List DeploymentRun} {deployment : Deployment} {outcome : RunOutcome}
    (hvisit : tick.visit settings runs deployment = .ran outcome) :
    outcome.run.deploymentId = deployment.id := by
  obtain ⟨dueAt, -, hrun⟩ := Tick.visit_eq_ran hvisit
  exact (runDeploymentResource_eq_ok hrun).deployment

/-- A tick makes runs in the order of its list. -/
theorem tickLoop_newRuns_deployments
    (index created : ℕ) (written : List DeploymentStatement)
    (deployments : List Deployment) :
    (((tickLoop settings tick view index created written deployments).statements.filterMap
      DeploymentStatement.newRun).map DeploymentRun.deploymentId).Sublist
        ((written.filterMap DeploymentStatement.newRun).map DeploymentRun.deploymentId ++
          deployments.map Deployment.id) := by
  induction deployments generalizing index created written with
  | nil => simp [tickLoop]
  | cons deployment rest ih =>
      rw [tickLoop]
      split
      · exact List.sublist_append_left _ _
      · split
        next =>
          refine (ih _ _ _).trans ?_
          exact List.Sublist.append_left (List.sublist_cons_self _ _) _
        next outcome hvisit =>
          refine (ih _ _ _).trans ?_
          rw [List.filterMap_append, outcome_newRun, List.map_append, List.append_assoc,
            List.map_singleton, Tick.visit_ran_deployment hvisit]
          exact List.Sublist.refl _
        next error hvisit =>
          rw [List.filterMap_append, List.map_append]
          exact List.Sublist.append_left (List.nil_sublist _) _
        next error hvisit => exact List.nil_sublist _

theorem runTrigger_tickInput (calendar : Calendar) (dueAt : Time) :
    runTrigger (tickInput calendar dueAt) = .str "schedule" := by
  simp [runTrigger, tickInput, Dict.get, Json.or, Json.truthy]

theorem tickInput_scheduledFor (calendar : Calendar) (dueAt : Time) :
    Dict.get (tickInput calendar dueAt) "scheduled_for" =
      .str (calendar.isoformat dueAt) := by
  simp [tickInput, Dict.get]

/-- What is known of a run that a tick makes: none for its instant is on the page. -/
theorem Tick.visit_ran_spec
    {runs : List DeploymentRun} {deployment : Deployment} {outcome : RunOutcome}
    (hvisit : tick.visit settings runs deployment = .ran outcome) :
    ∃ dueAt, outcome.run.creator = .tick ∧ outcome.run.deploymentId = deployment.id ∧
      (∀ instant, isScheduledFor settings.calendar instant outcome.run = true ↔
        instant = dueAt) ∧
      ∀ earlier ∈ listDeploymentRuns runs tick.workspaceId deployment.id,
        isScheduledFor settings.calendar dueAt earlier = false := by
  obtain ⟨dueAt, hdue, hrun⟩ := Tick.visit_eq_ran hvisit
  have hof := runDeploymentResource_eq_ok hrun
  refine ⟨dueAt, hof.creator, hof.deployment, ?_, ?_⟩
  · intro instant
    unfold isScheduledFor parseDatetime
    rw [hof.runTrigger, hof.scheduledFor, runTrigger_tickInput, tickInput_scheduledFor]
    simp [settings.calendar.isoformat_ne_empty, settings.calendar.fromisoformat_isoformat,
      eq_comm]
  · intro earlier hearlier
    unfold scheduledDeploymentDueAt at hdue
    obtain ⟨first, -, hdue⟩ := bind_eq_ok.mp hdue
    split at hdue
    · cases hdue
    next due =>
      split at hdue
      · cases hdue
      next hnone =>
        cases hdue
        rw [← Bool.not_eq_true]
        intro hscheduled
        exact hnone (List.any_eq_true.mpr ⟨earlier, hearlier, hscheduled⟩)

/-- A tick makes at most one run of a deployment. -/
theorem tick_newRuns_le_one
    (hids : ((view 0).deployments.map Deployment.id).Nodup) (calendar : Calendar)
    (deploymentId : String) (instant : Time) :
    (((runDueScheduledDeployments settings tick view).statements.filterMap
      DeploymentStatement.newRun).filter
        (isTickRun calendar deploymentId instant)).length ≤ 1 := by
  unfold runDueScheduledDeployments
  set made := (tickLoop settings tick view 0 0 []
    (listDeployments (view 0) tick.workspaceId)).statements.filterMap
      DeploymentStatement.newRun with hmade
  have hsublist := @tickLoop_newRuns_deployments settings tick view 0 0 []
    (listDeployments (view 0) tick.workspaceId)
  rw [← hmade] at hsublist
  have hnodup : (made.map DeploymentRun.deploymentId).Nodup :=
    (listDeployments_ids hids _).sublist hsublist
  have hcount := List.nodup_iff_count_le_one.mp hnodup deploymentId
  rw [List.count_eq_countP, List.countP_map, List.countP_eq_length_filter] at hcount
  refine le_trans (List.Sublist.length_le ?_) hcount
  refine List.monotone_filter_right _ fun run hrun => ?_
  simp only [isTickRun, Bool.and_eq_true, decide_eq_true_eq] at hrun
  simp [hrun.1.2]

end

/-! ## Steps -/

section

variable {settings : DeploymentSettings} {view : DeploymentView}
  {current next : DeploymentDb}

/-- A request makes no run of a tick. -/
theorem request_newRuns
    {call : DeploymentCall} (hrequest : ∀ tick, call ≠ .scheduled tick)
    (calendar : Calendar) (deploymentId : String) (instant : Time) :
    ((call.answer settings view).statements.filterMap DeploymentStatement.newRun).filter
      (isTickRun calendar deploymentId instant) = [] := by
  rw [List.filter_eq_nil_iff]
  intro run hrun hmade
  obtain ⟨held, outcome, hmakes, rfl⟩ := DeploymentCall.new_run hrun
  cases hmakes with
  | requested workspaceId surroundings draws body hcall hheld hresult =>
      have hcreator := (runDeploymentResource_eq_ok hresult).creator
      simp [isTickRun, hcreator] at hmade
  | due tick query hcall hlisted hvisit => exact hrequest tick hcall

theorem tick_seen_iff
    {tick : Tick} (hids : ((view 0).deployments.map Deployment.id).Nodup)
    (hone : OnePerInstant settings.calendar current)
    (hruns : next.runs = current.runs ++
      (runDueScheduledDeployments settings tick view).statements.filterMap
        DeploymentStatement.newRun) :
    OnePerInstant settings.calendar next ↔
      SeesTickRuns settings (.scheduled tick) view current := by
  have hlength : ∀ deploymentId instant,
      (next.runs.filter (isTickRun settings.calendar deploymentId instant)).length =
        (current.runs.filter (isTickRun settings.calendar deploymentId instant)).length +
        (((runDueScheduledDeployments settings tick view).statements.filterMap
          DeploymentStatement.newRun).filter
            (isTickRun settings.calendar deploymentId instant)).length := by
    intro deploymentId instant
    rw [hruns, List.filter_append, List.length_append]
  constructor
  · intro hnext position deployment outcome hcreates instant hinstant earlier hearlier htick
    exfalso
    obtain ⟨dueAt, hcreator, hdeployment, -, -⟩ := Tick.visit_ran_spec hcreates.visit
    have hbefore := List.length_pos_of_mem (List.mem_filter.mpr ⟨hearlier, htick⟩)
    have hnew := List.length_pos_of_mem (List.mem_filter.mpr ⟨hcreates.inserted,
      show isTickRun settings.calendar deployment.id instant outcome.run = true by
        simp [isTickRun, hcreator, hdeployment, hinstant]⟩)
    have htotal := hnext deployment.id instant
    rw [hlength] at htotal
    omega
  · intro hsees deploymentId instant
    rw [hlength]
    have hnew := @tick_newRuns_le_one settings tick view hids settings.calendar
      deploymentId instant
    rcases Nat.eq_zero_or_pos (((runDueScheduledDeployments settings tick
      view).statements.filterMap DeploymentStatement.newRun).filter
        (isTickRun settings.calendar deploymentId instant)).length with hzero | hpos
    · have hold := hone deploymentId instant
      omega
    · obtain ⟨made, hmade⟩ := List.exists_mem_of_length_pos hpos
      obtain ⟨hinserted, htick⟩ := List.mem_filter.mp hmade
      rcases tickLoop_newRun hinserted with
        hnone | ⟨position, deployment, outcome, hlisted, hvisit, rfl⟩
      · cases hnone
      · rw [Nat.zero_add] at hvisit
        obtain ⟨dueAt, -, hdeployment, hscheduled, hpage⟩ := Tick.visit_ran_spec hvisit
        simp only [isTickRun, Bool.and_eq_true, decide_eq_true_eq] at htick
        obtain rfl : dueAt = instant := ((hscheduled instant).mp htick.2).symm
        obtain rfl : deployment.id = deploymentId := hdeployment.symm.trans htick.1.2
        have hempty : current.runs.filter
            (isTickRun settings.calendar deployment.id dueAt) = [] := by
          rw [List.filter_eq_nil_iff]
          intro earlier hearlier hearlierTick
          have hread := hsees position deployment outcome
            ⟨hlisted, hvisit, hinserted⟩ dueAt htick.2 earlier hearlier hearlierTick
          have hnot := hpage earlier hread
          simp only [isTickRun, Bool.and_eq_true] at hearlierTick
          rw [hnot] at hearlierTick
          exact absurd hearlierTick.2 (by decide)
        rw [hempty]
        simpa using hnew

def DistinctDeployments (db : DeploymentDb) : Prop :=
  (db.deployments.map Deployment.id).Nodup

/-- A call keeps one run for each instant exactly if it has seen the runs of ticks. -/
theorem DeploymentCall.onePerInstant_iff
    {call : DeploymentCall} (hids : ((view 0).deployments.map Deployment.id).Nodup)
    (hone : OnePerInstant settings.calendar current)
    (hbody : call.body settings view current = some next) :
    OnePerInstant settings.calendar next ↔ SeesTickRuns settings call view current := by
  have hruns := commit_runs hbody
  cases call with
  | scheduled tick => exact tick_seen_iff hids hone hruns
  | request workspaceId surroundings draws sent =>
      refine iff_of_true (fun deploymentId instant => ?_) trivial
      rw [hruns, List.filter_append, request_newRuns (by simp), List.append_nil]
      exact hone deploymentId instant

end

/-! ## Runs -/

def emptyDeploymentTimeline : Timeline DeploymentDb :=
  { current := emptyDeployments, past := [] }

/-- In every interleaving of ticks and requests there is at most one run of a tick for each
deployment and instant, exactly if every tick that commits has seen such runs before. -/
theorem tick_runs_unique_iff
    {settings : DeploymentSettings} {calls : List (DeploymentCall × List ℕ)}
    {last : Timeline DeploymentDb}
    (hrun : run (deploymentTimelineStep settings) emptyDeploymentTimeline calls =
      some last) :
    (∀ db ∈ last.history, OnePerInstant settings.calendar db) ↔
      AllSteps (deploymentTimelineStep settings)
        (OnCommit (DeploymentCall.body settings) (SeesTickRuns settings))
        emptyDeploymentTimeline calls := by
  have hordered : emptyDeploymentTimeline.Ordered DistinctDeployments
      fun _ _ => True := by
    constructor <;>
      simp [emptyDeploymentTimeline, Timeline.history, DistinctDeployments,
        emptyDeployments]
  have hiff := @run_iff _ _ (DeploymentCall.body settings) DistinctDeployments
    (fun _ _ => True) (SeesTickRuns settings) (OnePerInstant settings.calendar)
    (fun _ => trivial) (fun _ _ _ _ _ => trivial)
    (fun _ _ _ _ hreads hbody => ⟨DeploymentCall.ids hreads.invariant hbody, trivial⟩)
    (fun _ _ _ _ hreads _ hone hbody =>
      DeploymentCall.onePerInstant_iff (hreads.views 0) hone hbody)
    _ _ _ hordered hrun
  have hstart : ∀ db ∈ emptyDeploymentTimeline.history,
      OnePerInstant settings.calendar db := by
    intro db hdb
    obtain rfl := List.mem_singleton.mp hdb
    intro deploymentId instant
    exact Nat.zero_le 1
  exact hiff.trans (and_iff_right hstart)

/-! ## Sample ticks -/

/-- A tick after the first minute. -/
def sampleMinuteTick (tag : String) : Tick where
  workspaceId := "wrkspc_default"
  surroundings := fun _ => sampleSurroundings
  draws := fun _ => sampleRunDraws tag 60000000
  now := 60000000
  limit := 100

/-- Two ticks; the queries of the second see the state before so many commits. -/
def sampleTickCalls (ages : List ℕ) : List (DeploymentCall × List ℕ) :=
  [(sampleDeploymentCall "a" 0 (.create (sampleDeploymentBody "nightly" [])), []),
   (.scheduled (sampleMinuteTick "s"), []), (.scheduled (sampleMinuteTick "t"), ages)]

def sampleTickRun (ages : List ℕ) : Option (Timeline DeploymentDb) :=
  run (deploymentTimelineStep sampleDeploymentSettings) emptyDeploymentTimeline
    (sampleTickCalls ages)

def sampleOrderedTicks : Timeline DeploymentDb :=
  (sampleTickRun []).get (by decide)

theorem sample_tick_runs_unique_iff :
    (∀ db ∈ sampleOrderedTicks.history, OnePerInstant sampleCalendar db) ↔
      AllSteps (deploymentTimelineStep sampleDeploymentSettings)
        (OnCommit (DeploymentCall.body sampleDeploymentSettings)
          (SeesTickRuns sampleDeploymentSettings))
        emptyDeploymentTimeline (sampleTickCalls []) :=
  @tick_runs_unique_iff sampleDeploymentSettings (sampleTickCalls []) sampleOrderedTicks
    (Option.some_get _).symm

def sampleOverlappingTicks : Timeline DeploymentDb :=
  (sampleTickRun [1, 1]).get (by decide)

/-- A tick that overlaps with another one makes the same run again. -/
theorem overlapping_ticks_repeat_run :
    ¬∀ db ∈ sampleOverlappingTicks.history, OnePerInstant sampleCalendar db := by
  intro hone
  have hcurrent :=
    hone sampleOverlappingTicks.current List.mem_cons_self "deploy_a0" 60000000
  revert hcurrent
  decide

end ManagedAgents
