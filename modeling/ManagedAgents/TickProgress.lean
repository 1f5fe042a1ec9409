import ManagedAgents.TickIsolation
import ManagedAgents.TickRounds
import ManagedAgents.TickUniqueness

/-!
# Progress of due schedules

A tick makes a run for a due instant of a deployment, and leaves no instant behind that
has a run already, exactly if the deployment is on the page, no failure takes its run
away, its first due instant has no run yet, and neither have the instants to come.
-/

namespace ManagedAgents

open Fallible LabelledRuns NewestPage

/-! ## Statement -/

def scheduleOf (data : Dict) : Option Dict :=
  match (Dict.get data "schedule").or (.dict []) with
  | .dict schedule => some schedule
  | _ => none

def upcomingInstants (calendar : Calendar) (data : Dict) : List Time :=
  match scheduleOf data with
  | none => []
  | some schedule =>
      match listOf (Dict.get schedule "upcoming_runs_at") with
      | .ok upcoming => upcoming.filterMap (parseDatetime calendar)
      | .error _ => []

def dueInstants (calendar : Calendar) (data : Dict) (now : Time) : List Time :=
  (upcomingInstants calendar data).filter (· ≤ now)

/-- A scheduled run of the deployment is there for the instant. -/
def HasRun (calendar : Calendar) (db : DeploymentDb) (deployment : Deployment)
    (instant : Time) : Prop :=
  ∃ run ∈ db.runs, run.workspaceId = deployment.workspaceId ∧
    run.deploymentId = deployment.id ∧ isScheduledFor calendar instant run = true

/-- The agent, the environment, the vaults and the resources of a deployment. -/
structure Usable (context : DeploymentContext) (draws : RunDraws)
    (surroundings : Surroundings) (data : Dict) (agent : Agent) : Prop where
  found : ∃ version, findRunAgent context surroundings (Dict.get data "agent") =
    .ok (agent, version)
  environment : ∃ environment, findRunEnvironment context surroundings
    (Dict.get data "environment_id") = .ok environment
  vaults : ∃ vaultIds, validateDeploymentVaultIds context.calendar.toPython surroundings
    context.workspaceId (Dict.get data "vault_ids") = .ok vaultIds
  resources : ∃ given resources,
    normalizeDeploymentResources (Dict.get data "resources") = .ok given ∧
    attachSessionResources (context.attachments draws) surroundings
      { id := draws.sessionId, workspaceId := agent.workspaceId } [] given = .ok resources

/-- An active deployment of the workspace with an enabled schedule and usable parts. -/
structure Eligible (settings : DeploymentSettings) (tick : Tick) (db : DeploymentDb)
    (deployment : Deployment) : Prop where
  stored : deployment ∈ db.deployments
  workspace : deployment.workspaceId = tick.workspaceId
  isOpen : deployment.archivedAt = none
  active : isDeploymentPaused deployment = false
  enabled : ∃ schedule, scheduleOf deployment.data = some schedule ∧
    scheduleEnabled schedule = true
  usable : ∃ agent, Usable (settings.context tick.workspaceId) (tick.draws deployment.id)
    (tick.surroundings deployment.id) deployment.data agent

/-- A due instant without a run gets one, and no instant to come has one. -/
structure Progressed (calendar : Calendar) (db next : DeploymentDb)
    (deployment : Deployment) (now : Time) : Prop where
  created : ∃ instant ∈ dueInstants calendar deployment.data now,
    ¬HasRun calendar db deployment instant ∧ HasRun calendar next deployment instant
  unblocked : ∀ row ∈ next.deployments, row.id = deployment.id →
    ∀ instant ∈ upcomingInstants calendar row.data,
      ¬HasRun calendar next deployment instant

/-- The deployments about which a tick has to do something. -/
def Waiting (settings : DeploymentSettings) (tick : Tick) (db : DeploymentDb)
    (deployment : Deployment) : Prop :=
  Eligible settings tick db deployment ∧
    ∃ instant ∈ dueInstants settings.calendar deployment.data tick.now,
      ¬HasRun settings.calendar db deployment instant

/-- A tick with spare capacity that is committed makes progress. -/
def MakesProgress (settings : DeploymentSettings) (db : DeploymentDb)
    (call : DeploymentCall) : Prop :=
  match call with
  | .request .. => True
  | .scheduled tick =>
      tick.dueCount settings db (listDeployments db tick.workspaceId) ≤ tick.limit →
      ∀ next, deploymentStep settings db (.scheduled tick) = some next →
        ∀ deployment, Waiting settings tick db deployment →
          Progressed settings.calendar db next deployment tick.now

/-- The schedule, the title and the events of a deployment raise nothing. -/
structure Runnable (settings : DeploymentSettings) (tick : Tick) (deployment : Deployment)
    (dueAt : Time) : Prop where
  schedule : ∃ data,
    rescheduledData settings.calendar ((tick.draws deployment.id).clock 0)
    deployment.data = .ok data
  session : (Dict.get deployment.data "agent").truthy = true →
    (Dict.get deployment.data "environment_id").truthy = true →
      (∃ title, nameOr ((Dict.get deployment.data "title").or
        (Dict.get deployment.data "name")) deployment.name = .ok title) ∧
      ∃ events, deploymentSessionEvents settings.calendar.toPython
        ((Dict.get deployment.data "initial_events").or (.list [])) = .ok events

structure ReadyToRun (settings : DeploymentSettings) (tick : Tick) (db : DeploymentDb)
    (deployment : Deployment) : Prop where
  /-- It is one of the newest deployments. -/
  listed : deployment ∈ listDeployments db tick.workspaceId
  /-- No other deployment ends the tick before or takes back what it has written. -/
  survives : tick.Survives settings db (listDeployments db tick.workspaceId) deployment
  first : ∀ instant,
    (dueInstants settings.calendar deployment.data tick.now).min? = some instant →
      ¬HasRun settings.calendar db deployment instant ∧
        Runnable settings tick deployment instant
  /-- The instants after the time of the clock have no run. -/
  later : ∀ data,
    rescheduledData settings.calendar
      ((tick.draws deployment.id).clock 0) deployment.data =
      .ok data →
    ∀ instant ∈ upcomingInstants settings.calendar data,
      ¬HasRun settings.calendar db deployment instant ∧
        (dueInstants settings.calendar deployment.data tick.now).min? ≠ some instant

def TickReady (settings : DeploymentSettings) (db : DeploymentDb)
    (call : DeploymentCall) :
    Prop :=
  match call with
  | .request .. => True
  | .scheduled tick =>
      tick.dueCount settings db (listDeployments db tick.workspaceId) ≤ tick.limit →
      (deploymentStep settings db (.scheduled tick)).isSome = true →
        ∀ deployment, Waiting settings tick db deployment →
          ReadyToRun settings tick db deployment

/-! ## Instants of equal data -/

theorem scheduleOf_of_dict
    {data schedule : Dict} (hschedule : Dict.get data "schedule" = .dict schedule) :
    scheduleOf data = some schedule := by
  unfold scheduleOf
  rw [hschedule]
  cases schedule <;> rfl

theorem upcomingInstants_congr
    {calendar : Calendar} {first second : Dict}
    (hsame : Dict.get first "schedule" = Dict.get second "schedule") :
    upcomingInstants calendar first = upcomingInstants calendar second := by
  unfold upcomingInstants scheduleOf
  rw [hsame]

/-- Equal data name the same instants, although they need not be the same data. -/
theorem upcomingInstants_of_equal
    {calendar : Calendar} {utcnow : Time} {held data : Dict}
    (hdata : rescheduledData calendar utcnow held = .ok data)
    (hequal : Dict.equal data held = true) :
    upcomingInstants calendar held = upcomingInstants calendar data := by
  unfold rescheduledData at hdata
  obtain ⟨schedule, -, hdata⟩ := bind_eq_ok.mp hdata
  split at hdata
  next hcron =>
    obtain ⟨upcoming, hupcoming, hdata⟩ := bind_eq_ok.mp hdata
    unfold upcomingTexts at hupcoming
    split at hupcoming
    next texts htexts =>
      cases hupcoming
      cases hdata
      set written := Dict.update schedule
        [("last_run_at", .str (calendar.isoformat utcnow)),
         ("upcoming_runs_at", .list (texts.map .str))] with hwritten
      have hget : Dict.get written "upcoming_runs_at" = .list (texts.map .str) := by
        rw [hwritten]
        simp only [Dict.update, List.foldl_cons, List.foldl_nil]
        rw [Dict.get_set_same]
      have hnew : Dict.get (Dict.set held "schedule" (.dict written)) "schedule" =
          .dict written := Dict.get_set_same _ _ _
      rcases Dict.get_equal_of_equal hequal (by rw [hnew]; simp) with hsame | hsame
      · exact (upcomingInstants_congr hsame).symm
      · rw [hnew] at hsame
        cases hold : Dict.get held "schedule" with
        | dict old =>
            rw [hold] at hsame
            have hfields : Dict.equal written old = true := by
              rw [Dict.equal, hsame, Bool.or_true]
            have hlist : Dict.get old "upcoming_runs_at" = .list (texts.map .str) := by
              rcases Dict.get_equal_of_equal hfields (by rw [hget]; simp) with heq | heq
              · rw [← heq, hget]
              · rw [hget] at heq
                cases hitems : Dict.get old "upcoming_runs_at" with
                | list items =>
                    rw [hitems] at heq
                    rw [Json.equalItems_texts.mp heq]
                | _ =>
                    rw [hitems] at heq
                    simp [Json.equal] at heq
            unfold upcomingInstants
            rw [scheduleOf_of_dict hold, scheduleOf_of_dict hnew]
            dsimp only
            rw [hlist, hget]
        | _ =>
            rw [hold] at hsame
            simp [Json.equal] at hsame
    · cases hupcoming
  · cases hdata
    rfl

/-! ## The round of a deployment -/

section

variable {settings : DeploymentSettings} {tick : Tick} {db next : DeploymentDb}
  {deployment : Deployment}

theorem firstDueInstant_eq_some
    {calendar : Calendar} {now dueAt : Time}
    (hfirst : firstDueInstant calendar deployment now = .ok (some dueAt)) :
    (dueInstants calendar deployment.data now).min? = some dueAt := by
  unfold firstDueInstant at hfirst
  split at hfirst
  · cases hfirst
  · split at hfirst
    next schedule hschedule =>
      split at hfirst
      · obtain ⟨upcoming, hupcoming, hdone⟩ := bind_eq_ok.mp hfirst
        unfold dueInstants upcomingInstants scheduleOf
        rw [hschedule]
        dsimp only
        rw [hupcoming]
        exact Except.ok.inj hdone
      · cases hfirst
    next => cases hfirst

/-- What the run of a round says. -/
structure RoundSpec (settings : DeploymentSettings) (tick : Tick)
    (deployment : Deployment) (outcome : RunOutcome) (dueAt : Time) : Prop where
  first : (dueInstants settings.calendar deployment.data tick.now).min? = some dueAt
  workspace : outcome.run.workspaceId = tick.workspaceId
  parent : outcome.run.deploymentId = deployment.id
  scheduled : ∀ instant, isScheduledFor settings.calendar instant outcome.run = true ↔
    instant = dueAt
  data : rescheduledData settings.calendar ((tick.draws deployment.id).clock 0)
    deployment.data = .ok outcome.data
  run : tick.runDue settings deployment dueAt = .ok outcome

theorem Tick.round_spec
    {outcome : RunOutcome} (hround : tick.round settings db deployment = .ran outcome) :
    ∃ dueAt, RoundSpec settings tick deployment outcome dueAt := by
  obtain ⟨dueAt, hdue, hrun⟩ := Tick.visit_eq_ran hround
  have hof := runDeploymentResource_eq_ok hrun
  have hfirst :
      firstDueInstant settings.calendar deployment tick.now = .ok (some dueAt) := by
    unfold scheduledDeploymentDueAt at hdue
    obtain ⟨first, hfirst, hdue⟩ := bind_eq_ok.mp hdue
    split at hdue
    · cases hdue
    next due =>
      split at hdue
      · cases hdue
      · cases hdue
        exact hfirst
  obtain ⟨instant, -, -, hscheduled, -⟩ := Tick.visit_ran_spec hround
  have hdata := hof.data
  unfold dataAfterRun at hdata
  rw [if_pos (runTrigger_tickInput _ _)] at hdata
  have hself : isScheduledFor settings.calendar dueAt outcome.run = true := by
    unfold isScheduledFor parseDatetime
    rw [hof.runTrigger, hof.scheduledFor, runTrigger_tickInput, tickInput_scheduledFor]
    simp [settings.calendar.isoformat_ne_empty, settings.calendar.fromisoformat_isoformat]
  obtain rfl : dueAt = instant := (hscheduled dueAt).mp hself
  exact ⟨dueAt, firstDueInstant_eq_some hfirst, hof.workspace, hof.deployment, hscheduled,
    hdata, hrun⟩

theorem firstDueInstant_of_enabled
    {calendar : Calendar} {now instant : Time} {schedule : Dict}
    (hactive : isDeploymentPaused deployment = false)
    (hschedule : scheduleOf deployment.data = some schedule)
    (henabled : scheduleEnabled schedule = true)
    (hdue : instant ∈ dueInstants calendar deployment.data now) :
    firstDueInstant calendar deployment now =
      .ok (dueInstants calendar deployment.data now).min? := by
  unfold scheduleOf at hschedule
  split at hschedule
  next held hheld =>
    obtain rfl := Option.some.inj hschedule
    unfold firstDueInstant
    rw [if_neg (by simp [hactive]), hheld]
    dsimp only
    rw [if_pos henabled]
    unfold dueInstants upcomingInstants scheduleOf at hdue ⊢
    rw [hheld] at hdue ⊢
    dsimp only at hdue ⊢
    cases hupcoming : listOf (Dict.get held "upcoming_runs_at") with
    | ok upcoming => rfl
    | error error =>
        rw [hupcoming] at hdue
        cases hdue
  next => cases hschedule

theorem checkRunAgent_of_found
    {context : DeploymentContext} {surroundings : Surroundings} {data : Dict}
    {found : Agent × ℤ}
    (hfound : findRunAgent context surroundings (Dict.get data "agent") = .ok found) :
    checkRunAgent context surroundings data = .ok () := by
  unfold findRunAgent at hfound
  obtain ⟨⟨agentId, requested⟩, href, hfound⟩ := bind_eq_ok.mp hfound
  rw [session_lift_eq_ok] at href
  dsimp only at hfound
  cases hagent : getAgent surroundings.agents context.workspaceId agentId with
  | none =>
      rw [hagent] at hfound
      cases hfound
  | some agent =>
      rw [hagent] at hfound
      dsimp only at hfound
      split at hfound
      · cases hfound
      next hopen =>
        unfold checkRunAgent
        refine bind_eq_ok.mpr ⟨(agentId, requested), lift_eq_ok.mpr href, ?_⟩
        dsimp only
        rw [hagent]
        exact raiseIf_eq_ok.mpr hopen

theorem exists_createRun_tick
    (context : DeploymentContext) (draws : RunDraws) (data : Dict) (dueAt : Time) :
    ∃ run, createRun context draws .tick deployment data
      (tickInput context.calendar dueAt) =
      .ok run := by
  have htrigger : triggerContext (tickInput context.calendar dueAt) =
      .ok [("type", .str "schedule"), ("scheduled_at",
        .str (context.calendar.isoformat dueAt))] := by
    unfold triggerContext
    rw [if_pos (runTrigger_tickInput _ _), tickInput_scheduledFor]
    exact if_pos (by simp [Json.truthy, context.calendar.isoformat_ne_empty])
  have hattempt : context.calendar.toPython.toInt
      ((Dict.get (tickInput context.calendar dueAt) "attempt").or (.int 1)) = .ok 1 := by
    rw [tickInput_or _ (by decide) (by decide)]
    rfl
  unfold createRun
  rw [hattempt]
  change ∃ run, triggerContext _ >>= _ = _
  rw [htrigger]
  exact ⟨_, rfl⟩

section

variable {data : Dict} {dueAt : Time} {agent : Agent} {version : ℤ}
  {environment : EnvironmentRow}

/-- The title and the events decide whether the session of a tick is made. -/
theorem createRunSession_tick_iff
    {context : DeploymentContext} {draws : RunDraws} {surroundings : Surroundings}
    (husable : Usable context draws surroundings data agent) :
    (∃ session, createRunSession context draws surroundings deployment data
      (tickInput context.calendar dueAt) agent version environment = .ok session) ↔
    (∃ title, nameOr ((Dict.get data "title").or (Dict.get data "name")) deployment.name =
      .ok title) ∧
    ∃ events, deploymentSessionEvents context.calendar.toPython
      ((Dict.get data "initial_events").or (.list [])) = .ok events := by
  obtain ⟨vaultIds, hvaultIds⟩ := husable.vaults
  obtain ⟨given, resources, hgiven, hresources⟩ := husable.resources
  have hmetadata : ∃ metadata, runSessionMetadata deployment.id draws.runId
      (tickInput context.calendar dueAt) = .ok metadata := by
    unfold runSessionMetadata
    rw [Dict.get_of_not_contains (tickInput_contains _ (by decide) (by decide))]
    exact ⟨_, rfl⟩
  obtain ⟨metadata, hmetadata⟩ := hmetadata
  unfold createRunSession
  dsimp only
  rw [hmetadata, tickInput_givenOr _ (by decide) (by decide),
    tickInput_givenOr _ (by decide) (by decide), tickInput_or _ (by decide) (by decide),
    tickInput_or _ (by decide) (by decide), hgiven]
  simp only [bind_eq_ok, pure_eq_ok, Except.ok.injEq]
  constructor
  · rintro ⟨session, -, -, -, -, title, htitle, -, -, -, -, events, hevents, -⟩
    exact ⟨⟨title, htitle⟩, events, hevents⟩
  · rintro ⟨⟨title, htitle⟩, events, hevents⟩
    exact ⟨_, metadata, rfl, vaultIds, hvaultIds, title, htitle, given, rfl, resources,
      hresources, events, hevents, rfl⟩

theorem maybeCreateDeploymentSession_tick
    {context : DeploymentContext} {draws : RunDraws} {surroundings : Surroundings}
    (hagent : findRunAgent context surroundings (Dict.get data "agent") =
      .ok (agent, version))
    (henvironment : findRunEnvironment context surroundings
      (Dict.get data "environment_id") = .ok environment) :
    maybeCreateDeploymentSession context draws surroundings deployment data
      (tickInput context.calendar dueAt) =
      if (Dict.get data "agent").truthy && (Dict.get data "environment_id").truthy then
        (SessionFailure.lift (createRunSession context draws surroundings deployment data
          (tickInput context.calendar dueAt) agent version environment)).map some
      else .ok none := by
  unfold maybeCreateDeploymentSession
  dsimp only
  rw [tickInput_or _ (by decide) (by decide), tickInput_or _ (by decide) (by decide),
    hagent]
  split
  · change (findRunEnvironment _ _ _ >>= _) = _
    rw [henvironment]
    change (SessionFailure.lift _ >>= _) = _
    cases createRunSession context draws surroundings deployment data
      (tickInput context.calendar dueAt) agent version environment <;> rfl
  · rfl

/-- A session that is not made fails the run only if it raises. -/
theorem completeRun_tick_iff
    {run : DeploymentRun} {made : Bool}
    {result : Except HTTPException DeploymentSession} :
    (∃ completed, completeRun run (if made then (SessionFailure.lift result).map some
      else .ok none) = .ok completed) ↔
        (made = true → ∃ session, result = .ok session) := by
  cases made with
  | false => exact iff_of_true ⟨_, rfl⟩ (by simp)
  | true =>
      cases result with
      | ok session => exact iff_of_true ⟨_, rfl⟩ fun _ => ⟨session, rfl⟩
      | error error =>
          refine iff_of_false ?_ (by simp)
          rintro ⟨completed, hcompleted⟩
          cases hcompleted

theorem Usable.of_run
    {context : DeploymentContext} {draws : RunDraws} {surroundings : Surroundings}
    {after : Dict} (husable : Usable context draws surroundings data agent)
    (hkept : ∀ key, key ≠ "schedule" → Dict.get after key = Dict.get data key) :
    Usable context draws surroundings after agent where
  found := by
    rw [hkept "agent" (by decide)]
    exact husable.found
  environment := by
    rw [hkept "environment_id" (by decide)]
    exact husable.environment
  vaults := by
    rw [hkept "vault_ids" (by decide)]
    exact husable.vaults
  resources := by
    rw [hkept "resources" (by decide)]
    exact husable.resources

/-- A deployment with usable parts is run exactly if it is runnable. -/
theorem runDue_iff
    (hopen : deployment.archivedAt = none)
    (hactive : isDeploymentPaused deployment = false)
    (husable : Usable (settings.context tick.workspaceId) (tick.draws deployment.id)
      (tick.surroundings deployment.id) deployment.data agent) :
    (∃ outcome, tick.runDue settings deployment dueAt = .ok outcome) ↔
      Runnable settings tick deployment dueAt := by
  obtain ⟨version, hagent⟩ := husable.found
  obtain ⟨environment, henvironment⟩ := husable.environment
  have hmutable : ensureDeploymentMutable deployment = .ok () :=
    raiseIf_eq_ok.mpr (not_not.mpr hopen)
  have hcheck := checkRunAgent_of_found hagent
  have hsession : ∀ after, dataAfterRun settings.calendar
      ((tick.draws deployment.id).clock 0) deployment.data
      (tickInput settings.calendar dueAt) = .ok after → ∀ run,
      (∃ completed, completeRun run (maybeCreateDeploymentSession
        (settings.context tick.workspaceId) (tick.draws deployment.id)
        (tick.surroundings deployment.id) deployment after
        (tickInput settings.calendar dueAt)) = .ok completed) ↔
      ((Dict.get deployment.data "agent").truthy = true →
        (Dict.get deployment.data "environment_id").truthy = true →
          (∃ title, nameOr ((Dict.get deployment.data "title").or
            (Dict.get deployment.data "name")) deployment.name = .ok title) ∧
          ∃ events, deploymentSessionEvents settings.calendar.toPython
            ((Dict.get deployment.data "initial_events").or (.list [])) =
              .ok events) := by
    intro after hafter run
    have hkept : ∀ key, key ≠ "schedule" →
        Dict.get after key = Dict.get deployment.data key :=
      fun key hkey => dataAfterRun_get hafter hkey
    have hfound := hagent
    have hplace := henvironment
    rw [← hkept "agent" (by decide)] at hfound
    rw [← hkept "environment_id" (by decide)] at hplace
    rw [show settings.calendar = (settings.context tick.workspaceId).calendar from rfl,
      maybeCreateDeploymentSession_tick hfound hplace, completeRun_tick_iff,
      createRunSession_tick_iff (husable.of_run hkept), hkept "agent" (by decide),
      hkept "environment_id" (by decide), hkept "title" (by decide),
      hkept "name" (by decide), hkept "initial_events" (by decide), Bool.and_eq_true,
      and_imp]
  constructor
  · rintro ⟨outcome, hrun⟩
    unfold Tick.runDue runDeploymentResource at hrun
    simp only [bind_eq_ok, lift_eq_ok] at hrun
    obtain ⟨-, -, -, -, -, -, after, hafter, run, -, completed, hcompleted, -⟩ := hrun
    refine ⟨?_, (hsession after hafter run).mp ⟨completed, hcompleted⟩⟩
    unfold dataAfterRun at hafter
    rw [if_pos (runTrigger_tickInput _ _)] at hafter
    exact ⟨after, hafter⟩
  · rintro ⟨⟨after, hafter⟩, hmade⟩
    have hdata : dataAfterRun settings.calendar ((tick.draws deployment.id).clock 0)
        deployment.data (tickInput settings.calendar dueAt) = .ok after := by
      unfold dataAfterRun
      rw [if_pos (runTrigger_tickInput _ _)]
      exact hafter
    obtain ⟨run, hcreated⟩ := @exists_createRun_tick deployment
      (settings.context tick.workspaceId) (tick.draws deployment.id) after dueAt
    obtain ⟨⟨completed, session⟩, hcompleted⟩ := (hsession after hdata run).mpr hmade
    unfold Tick.runDue runDeploymentResource
    simp only [bind_eq_ok, lift_eq_ok]
    refine ⟨_, (), hmutable, (), ?_, (), hcheck, after, hdata, run, hcreated,
      (completed, session), hcompleted, rfl⟩
    exact raiseIf_eq_ok.mpr (by simp [hactive])

end

/-! ## The step of a tick -/

/-- What the tick has committed holds the statements of a round that survives. -/
theorem mem_committed_of_survives
    (hroom : tick.dueCount settings db (listDeployments db tick.workspaceId) ≤ tick.limit)
    (hlisted : deployment ∈ listDeployments db tick.workspaceId)
    (hsurvives : tick.Survives settings db
      (listDeployments db tick.workspaceId) deployment)
    {statement : DeploymentStatement}
    (hstatement : statement ∈ (tick.round settings db deployment).statements deployment) :
    statement ∈ (runDueScheduledDeployments settings tick fun _ => db).statements := by
  unfold runDueScheduledDeployments
  rcases first_stop settings tick db (listDeployments db tick.workspaceId) with
    hnone | ⟨front, failing, back, hsplit, hfront, hfailing⟩
  · have hran : 0 + tick.ranCount settings db (listDeployments db tick.workspaceId) ≤
        tick.limit := by
      rw [Nat.zero_add]
      exact Tick.ranCount_le_dueCount.trans hroom
    rw [tickLoop_of_no_stop hnone hran, List.nil_append]
    exact List.mem_flatMap.mpr ⟨deployment, hlisted, hstatement⟩
  · obtain ⟨⟨error, harchived⟩, hown⟩ :=
      hsurvives front failing back hsplit hfront hfailing
    rw [hsplit] at hroom
    rw [hsplit, tick_of_archived hfront harchived hroom]
    exact List.mem_append_left _ (List.mem_flatMap.mpr ⟨deployment, hown, hstatement⟩)

theorem target_unique
    {statements : List DeploymentStatement}
    (htargets : (statements.filterMap DeploymentStatement.target).Nodup)
    {deploymentId : String} {first second : DeploymentColumns}
    (hfirst : .updateDeployment deploymentId first ∈ statements)
    (hsecond : .updateDeployment deploymentId second ∈ statements) : first = second := by
  induction statements with
  | nil => cases hfirst
  | cons statement rest ih =>
      have hrest : (rest.filterMap DeploymentStatement.target).Nodup :=
        htargets.sublist ((List.sublist_cons_self _ _).filterMap _)
      have hhead : ∀ columns other, statement = .updateDeployment deploymentId columns →
          .updateDeployment deploymentId other ∉ rest := by
        rintro columns other rfl hother
        rw [List.filterMap_cons_some (show DeploymentStatement.target
          (.updateDeployment deploymentId columns) = some deploymentId from rfl),
          List.nodup_cons] at htargets
        exact htargets.1 (List.mem_filterMap.mpr ⟨_, hother, rfl⟩)
      rcases List.mem_cons.mp hfirst with hsame | hfirst
      · rcases List.mem_cons.mp hsecond with hother | hsecond
        · exact (DeploymentStatement.updateDeployment.inj (hsame.trans hother.symm)).2
        · exact absurd hsecond (hhead first second hsame.symm)
      · rcases List.mem_cons.mp hsecond with hother | hsecond
        · exact absurd hfirst (hhead second first hother.symm)
        · exact ih hrest hfirst hsecond

theorem rowAfter_of_update
    {statements : List DeploymentStatement} {row : Deployment}
    {columns : DeploymentColumns}
    (htargets : (statements.filterMap DeploymentStatement.target).Nodup)
    (hcolumns : .updateDeployment row.id columns ∈ statements) :
    rowAfter statements row = columns.write row := by
  rcases rowAfter_cases htargets row with ⟨hnone, -⟩ | ⟨other, hother, hwritten⟩
  · exact absurd rfl (hnone _ hcolumns)
  · rw [hwritten, target_unique htargets hother hcolumns]

/-- The row of a deployment whose round survives names the instants of the run. -/
theorem upcoming_after_tick
    (hids : (db.deployments.map Deployment.id).Nodup)
    (hstep : deploymentStep settings db (.scheduled tick) = some next)
    (hstored : deployment ∈ db.deployments) {outcome : RunOutcome}
    (hdata : rescheduledData settings.calendar ((tick.draws deployment.id).clock 0)
      deployment.data = .ok outcome.data)
    (hmem : updateDeploymentRow deployment outcome.data none none ∈
      (runDueScheduledDeployments settings tick fun _ => db).statements) :
    ∃ after ∈ next.deployments, after.id = deployment.id ∧
      (∀ row ∈ next.deployments, row.id = deployment.id → row = after) ∧
        upcomingInstants settings.calendar after.data =
          upcomingInstants settings.calendar outcome.data := by
  set statements := (runDueScheduledDeployments settings tick fun _ => db).statements
    with hstatements
  have hnext : next.deployments = db.deployments.map (rowAfter statements) := by
    refine commit_deployments ?_ hstep
    rcases DeploymentCall.answer_inserts settings (.scheduled tick) fun _ => db with
      ⟨inserted, hinserted⟩ | hinserts
    · rw [show statements = [.insertDeployment inserted] from hinserted] at hmem
      cases List.mem_singleton.mp hmem
    · exact hinserts
  have htargets : (statements.filterMap DeploymentStatement.target).Nodup :=
    @DeploymentCall.answer_targets (fun _ => db) settings (.scheduled tick) hids
  refine ⟨rowAfter statements deployment, ?_, rowAfter_id _ _, ?_, ?_⟩
  · rw [hnext]
    exact List.mem_map_of_mem hstored
  · intro row hrow hid
    rw [hnext] at hrow
    obtain ⟨old, hold, rfl⟩ := List.mem_map.mp hrow
    rw [rowAfter_id] at hid
    obtain rfl := List.inj_on_of_nodup_map hids hold hstored hid
    rfl
  · rw [rowAfter_of_update htargets hmem]
    simp only [DeploymentColumns.write]
    cases hequal : Dict.equal outcome.data deployment.data with
    | true => exact upcomingInstants_of_equal hdata hequal
    | false => rfl

/-- The runs after a tick are the runs before and those of its rounds. -/
theorem hasRun_after_tick
    (hids : (db.deployments.map Deployment.id).Nodup)
    (hstep : deploymentStep settings db (.scheduled tick) = some next)
    (hstored : deployment ∈ db.deployments) {instant : Time}
    (hrun : HasRun settings.calendar next deployment instant) :
    HasRun settings.calendar db deployment instant ∨
      deployment ∈ listDeployments db tick.workspaceId ∧ ∃ outcome,
        tick.round settings db deployment = .ran outcome ∧
          isScheduledFor settings.calendar instant outcome.run = true ∧
            outcome.run ∈ (runDueScheduledDeployments settings tick
              fun _ => db).statements.filterMap DeploymentStatement.newRun := by
  obtain ⟨run, hmem, hworkspace, hparent, hscheduled⟩ := hrun
  rw [commit_runs hstep] at hmem
  rcases List.mem_append.mp hmem with hold | hnew
  · exact .inl ⟨run, hold, hworkspace, hparent, hscheduled⟩
  · rcases tickLoop_newRun hnew with
      hnone | ⟨position, held, outcome, hheld, hvisit, rfl⟩
    · cases hnone
    · have hlisted := List.mem_of_getElem? hheld
      have hsame : held.id = deployment.id :=
        (Tick.visit_ran_deployment hvisit).symm.trans hparent
      obtain rfl := List.inj_on_of_nodup_map hids (mem_listDeployments hlisted).1 hstored
        hsame
      exact .inr ⟨hlisted, outcome, hvisit, hscheduled, hnew⟩

theorem hasRun_mono
    (hstep : deploymentStep settings db (.scheduled tick) = some next) {instant : Time}
    (hrun : HasRun settings.calendar db deployment instant) :
    HasRun settings.calendar next deployment instant := by
  obtain ⟨run, hmem, hrun⟩ := hrun
  refine ⟨run, ?_, hrun⟩
  rw [commit_runs hstep]
  exact List.mem_append_left _ hmem

theorem Waiting.usable_run
    (hwaiting : Waiting settings tick db deployment) {dueAt : Time} :
    (∃ outcome, tick.runDue settings deployment dueAt = .ok outcome) ↔
      Runnable settings tick deployment dueAt := by
  obtain ⟨agent, husable⟩ := hwaiting.1.usable
  exact runDue_iff hwaiting.1.isOpen hwaiting.1.active husable

/-- The round of a deployment whose first due instant has no run. -/
theorem round_of_ready
    (hwaiting : Waiting settings tick db deployment)
    (hready : ReadyToRun settings tick db deployment) :
    ∃ outcome, tick.round settings db deployment = .ran outcome := by
  have heligible := hwaiting.1
  obtain ⟨instant, hdue, -⟩ := hwaiting.2
  obtain ⟨schedule, hschedule, henabled⟩ := heligible.enabled
  have hfirst := firstDueInstant_of_enabled heligible.active hschedule henabled hdue
  obtain ⟨dueAt, hmin⟩ := Option.isSome_iff_exists.mp (List.isSome_min?_of_mem hdue)
  obtain ⟨hnone, hrunnable⟩ := hready.first dueAt hmin
  rw [hmin] at hfirst
  have hexists : scheduledDeploymentRunExists (settings.context tick.workspaceId) db.runs
      deployment.id dueAt = false := by
    rw [← Bool.not_eq_true]
    intro hany
    obtain ⟨run, hlisted, hscheduled⟩ := List.any_eq_true.mp hany
    have hmem := List.mem_filter.mp (mem_of_mem_page hlisted)
    have hof : run.workspaceId = tick.workspaceId ∧ run.deploymentId = deployment.id :=
      of_decide_eq_true hmem.2
    exact hnone ⟨run, hmem.1, hof.1.trans heligible.workspace.symm, hof.2, hscheduled⟩
  have hdueAt : scheduledDeploymentDueAt (settings.context tick.workspaceId) db.runs
      deployment tick.now = .ok (some dueAt) := by
    unfold scheduledDeploymentDueAt
    refine bind_eq_ok.mpr ⟨some dueAt, hfirst, ?_⟩
    dsimp only
    rw [hexists]
    rfl
  obtain ⟨outcome, houtcome⟩ := hwaiting.usable_run.mpr hrunnable
  refine ⟨outcome, ?_⟩
  rw [round_of_due hdueAt, houtcome]

theorem progressed_of_ready
    (hids : (db.deployments.map Deployment.id).Nodup)
    (hroom : tick.dueCount settings db (listDeployments db tick.workspaceId) ≤ tick.limit)
    (hstep : deploymentStep settings db (.scheduled tick) = some next)
    (hwaiting : Waiting settings tick db deployment)
    (hready : ReadyToRun settings tick db deployment) :
    Progressed settings.calendar db next deployment tick.now := by
  have hstored := hwaiting.1.stored
  obtain ⟨outcome, hround⟩ := round_of_ready hwaiting hready
  obtain ⟨dueAt, hspec⟩ := Tick.round_spec hround
  have hcommitted :=
    fun statement => @mem_committed_of_survives settings tick db deployment
    hroom hready.listed hready.survives statement
  rw [hround] at hcommitted
  have hinserted : outcome.run ∈ next.runs := by
    rw [commit_runs hstep]
    refine List.mem_append_right _
      (List.mem_filterMap.mpr ⟨.insertRun outcome.run, ?_, rfl⟩)
    exact hcommitted _ (by simp [Visit.statements, RunOutcome.statements])
  obtain ⟨after, -, -, honly, hupcoming⟩ := upcoming_after_tick hids hstep hstored
    hspec.data (hcommitted _ (by simp [Visit.statements, RunOutcome.statements]))
  refine ⟨⟨dueAt, List.min?_mem hspec.first, (hready.first dueAt hspec.first).1, ?_⟩, ?_⟩
  · exact ⟨outcome.run, hinserted, hspec.workspace.trans hwaiting.1.workspace.symm,
      hspec.parent, (hspec.scheduled dueAt).mpr rfl⟩
  · intro row hrow hid instant hinstant hrun
    rw [honly row hrow hid, hupcoming] at hinstant
    obtain ⟨hnone, hother⟩ := hready.later outcome.data hspec.data instant hinstant
    rcases hasRun_after_tick hids hstep hstored hrun with
      hbefore | ⟨-, other, hagain, hscheduled, -⟩
    · exact hnone hbefore
    · obtain rfl := Visit.ran.inj (hround.symm.trans hagain)
      rw [(hspec.scheduled instant).mp hscheduled] at hother
      exact hother hspec.first

theorem ready_of_progressed
    (hids : (db.deployments.map Deployment.id).Nodup)
    (hroom : tick.dueCount settings db (listDeployments db tick.workspaceId) ≤ tick.limit)
    (hstep : deploymentStep settings db (.scheduled tick) = some next)
    (hwaiting : Waiting settings tick db deployment)
    (hprogressed : Progressed settings.calendar db next deployment tick.now) :
    ReadyToRun settings tick db deployment := by
  have hstored := hwaiting.1.stored
  obtain ⟨instant, -, hnone, hnew⟩ := hprogressed.created
  rcases hasRun_after_tick hids hstep hstored hnew with
    hbefore | ⟨hlisted, outcome, hround, hscheduled, hinserted⟩
  · exact absurd hbefore hnone
  · obtain ⟨dueAt, hspec⟩ := Tick.round_spec hround
    obtain rfl := (hspec.scheduled instant).mp hscheduled
    have hsurvives : tick.Survives settings db (listDeployments db tick.workspaceId)
        deployment := by
      refine survives_of_runs (listDeployments_ids hids _) hroom hlisted ?_
      exact List.ne_nil_of_mem (List.mem_filter.mpr ⟨hinserted, by simp [hspec.parent]⟩)
    have hcommitted := fun statement => @mem_committed_of_survives settings tick db
      deployment hroom hlisted hsurvives statement
    rw [hround] at hcommitted
    obtain ⟨after, hafter, hid, -, hupcoming⟩ := upcoming_after_tick hids hstep hstored
      hspec.data (hcommitted _ (by simp [Visit.statements, RunOutcome.statements]))
    refine ⟨hlisted, hsurvives, ?_, ?_⟩
    · intro first hfirst
      obtain rfl := Option.some.inj (hspec.first.symm.trans hfirst)
      exact ⟨hnone, hwaiting.usable_run.mp ⟨outcome, hspec.run⟩⟩
    · intro data hdata later hlater
      obtain rfl := Except.ok.inj (hspec.data.symm.trans hdata)
      rw [← hupcoming] at hlater
      have hfree := hprogressed.unblocked after hafter hid later hlater
      refine ⟨fun hbefore => hfree (hasRun_mono hstep hbefore), fun hfirst => hfree ?_⟩
      obtain rfl := Option.some.inj (hspec.first.symm.trans hfirst)
      exact hnew

end

/-! ## Runs -/

/-- A tick makes progress exactly if every waiting deployment is ready for it. -/
theorem makesProgress_iff
    {settings : DeploymentSettings} {db : DeploymentDb} {call : DeploymentCall}
    (hids : DistinctDeployments db) :
    MakesProgress settings db call ↔ TickReady settings db call := by
  cases call with
  | request workspaceId surroundings draws sent => exact Iff.rfl
  | scheduled tick =>
      constructor
      · intro hprogress hroom hcommits deployment hwaiting
        obtain ⟨next, hstep⟩ := Option.isSome_iff_exists.mp hcommits
        exact ready_of_progressed hids hroom hstep hwaiting
          (hprogress hroom next hstep deployment hwaiting)
      · intro hready hroom next hstep deployment hwaiting
        exact progressed_of_ready hids hroom hstep hwaiting
          (hready hroom (Option.isSome_iff_exists.mpr ⟨next, hstep⟩) deployment hwaiting)

/-- In every run of requests and ticks, each tick makes progress for the deployments that
wait for it exactly if they are ready. -/
theorem schedules_progress_iff
    (settings : DeploymentSettings) (calls : List DeploymentCall) :
    AllSteps (deploymentStep settings) (MakesProgress settings) emptyDeployments calls ↔
      AllSteps (deploymentStep settings) (TickReady settings) emptyDeployments calls := by
  have hstart : DistinctDeployments emptyDeployments := List.nodup_nil
  refine @allSteps_iff_of_invariant _ _ (deploymentStep settings) DistinctDeployments
    (fun _ _ => True) _ _ (fun db call hids _ => makesProgress_iff hids) ?_ _ _ hstart
    (allSteps_true _ _)
  intro db call next hids _ hstep
  exact DeploymentCall.ids hids hstep

/-! ## A sample run -/

/-- A run for the first minute that was asked for, and a tick after the second one. -/
def sampleRequestedRun : List DeploymentCall :=
  [sampleDeploymentCall "a" 0 (.create (sampleDeploymentBody "nightly" [])),
   sampleDeploymentCall "b" 0 (.run "deploy_a0"
    [("trigger", .str "schedule"), ("scheduled_for", .str "1970-01-01T00:01:00+00:00")])]

def sampleRequestedDeployments : DeploymentDb :=
  (run (deploymentStep sampleDeploymentSettings) emptyDeployments sampleRequestedRun).get
    (by decide)

def sampleSecondMinuteTick : Tick where
  workspaceId := "wrkspc_default"
  surroundings := fun _ => sampleSurroundings
  draws := fun _ => sampleRunDraws "t" 120000000
  now := 120000000
  limit := 100

def sampleWaitingDeployment : Deployment :=
  sampleRequestedDeployments.deployments.head (by decide)

theorem sampleDeploymentWaits :
    Waiting sampleDeploymentSettings sampleSecondMinuteTick sampleRequestedDeployments
      sampleWaitingDeployment := by
  refine ⟨⟨List.head_mem _, by decide, by decide, by decide,
    ⟨_, rfl, by decide⟩, ⟨sampleAgentRows.agents.head (by decide), ?_⟩⟩,
    120000000, by decide, ?_⟩
  · exact ⟨⟨1, by decide⟩, ⟨_, rfl⟩, ⟨[], by decide⟩, [], [],
      by decide, by decide⟩
  · unfold HasRun
    decide

/-- The first due instant has a run that was asked for, so the second one gets none. -/
theorem requested_run_blocks_schedule :
    ¬AllSteps (deploymentStep sampleDeploymentSettings)
      (MakesProgress sampleDeploymentSettings) emptyDeployments
      (sampleRequestedRun ++ [.scheduled sampleSecondMinuteTick]) := by
  intro hsteps
  have hrun : run (deploymentStep sampleDeploymentSettings) emptyDeployments
      sampleRequestedRun = some sampleRequestedDeployments := (Option.some_get _).symm
  have hlast := hsteps.of_append hrun
  have hidle : deploymentStep sampleDeploymentSettings sampleRequestedDeployments
      (.scheduled sampleSecondMinuteTick) = some sampleRequestedDeployments := by
    decide
  obtain ⟨instant, -, hnone, hnew⟩ := (hlast.1 (by decide) _ hidle
    sampleWaitingDeployment sampleDeploymentWaits).created
  exact hnone hnew

end ManagedAgents
