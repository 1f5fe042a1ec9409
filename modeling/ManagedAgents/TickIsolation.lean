import ManagedAgents.DeploymentStatuses
import ManagedAgents.TickRounds

/-!
# Failures in a tick

What a tick creates for a deployment does not depend on other deployments which fail,
exactly if none of them raises while another runs and none of them is archived before
another runs.
-/

namespace ManagedAgents

open Fallible NewestPage

/-! ## Statement -/

/-- The deployments without those which are not kept. -/
def DeploymentDb.keeping (db : DeploymentDb) (kept : Deployment → Bool) : DeploymentDb :=
  { db with deployments := db.deployments.filter kept }

/-- What an undisturbed tick commits. -/
def Tick.committed (settings : DeploymentSettings) (tick : Tick) (db : DeploymentDb) :
    List DeploymentStatement :=
  (runDueScheduledDeployments settings tick fun _ => db).statements

/-- The runs and the sessions of a deployment are the same without others that fail. -/
def Isolated (settings : DeploymentSettings) (tick : Tick) (db : DeploymentDb) : Prop :=
  ∀ deployment ∈ listDeployments db tick.workspaceId, ∀ kept : Deployment → Bool,
    kept deployment = true →
    (∀ other ∈ db.deployments, kept other = false →
      (tick.round settings db other).stops = true) →
    runsFor (tick.committed settings db) deployment.id =
        runsFor (tick.committed settings (db.keeping kept)) deployment.id ∧
      sessionsFor (tick.committed settings db) deployment.id =
        sessionsFor (tick.committed settings (db.keeping kept)) deployment.id

def Deployment.age (deployment : Deployment) : Time ×ₗ String :=
  toLex (deployment.createdAt, deployment.id)

/-- If a deployment runs, no deployment raises, and one which is archived is older. -/
def FailuresLast (settings : DeploymentSettings) (tick : Tick) (db : DeploymentDb)
    (deployments : List Deployment) : Prop :=
  ∀ running ∈ deployments, (tick.round settings db running).isRan = true →
    ∀ failing ∈ deployments, (tick.round settings db failing).stops = true →
      (∃ error, tick.round settings db failing = .archived error) ∧
        failing.age < running.age

/-! ## Lists of deployments -/

section

variable {settings : DeploymentSettings} {tick : Tick} {db : DeploymentDb}
  {deployment : Deployment} {deployments : List Deployment}

theorem deployments_keyed
    (hids : (db.deployments.map Deployment.id).Nodup) (selected : Deployment → Bool) :
    Keyed Deployment.age (db.deployments.filter selected) := by
  have hselected : ((db.deployments.filter selected).map Deployment.id).Nodup :=
    hids.sublist (List.filter_sublist.map _)
  apply List.Nodup.of_map fun age : Time ×ₗ String => (ofLex age).2
  rw [List.map_map]
  exact hselected

theorem listDeployments_keeping
    (hids : (db.deployments.map Deployment.id).Nodup)
    (hpage : (db.deployments.filter fun row =>
      row.workspaceId = tick.workspaceId ∧ row.archivedAt = none).length ≤ 1000)
    (kept : Deployment → Bool) :
    listDeployments (db.keeping kept) tick.workspaceId =
      (listDeployments db tick.workspaceId).filter kept := by
  have hcomm : (db.keeping kept).deployments.filter (fun row =>
        row.workspaceId = tick.workspaceId ∧ row.archivedAt = none) =
      (db.deployments.filter fun row =>
        row.workspaceId = tick.workspaceId ∧ row.archivedAt = none).filter kept :=
    List.filter_comm _ _ _
  unfold listDeployments
  rw [hcomm]
  exact (deployments_keyed hids _).page_filter hpage kept

theorem listDeployments_descending
    (hids : (db.deployments.map Deployment.id).Nodup) (workspaceId : String) :
    Descending Deployment.age (listDeployments db workspaceId) :=
  (deployments_keyed hids _).page_descending 1000

/-- If the failures come last, a tick creates for a deployment what its round does. -/
theorem createdFor_tick
    (hids : (deployments.map Deployment.id).Nodup)
    (hdescending : Descending Deployment.age deployments)
    (hroom : tick.dueCount settings db deployments ≤ tick.limit)
    (hlast : FailuresLast settings tick db deployments)
    (hmem : deployment ∈ deployments) :
    runsFor (tickLoop settings tick (fun _ => db) 0 0 [] deployments).statements
          deployment.id =
        runsFor ((tick.round settings db deployment).statements deployment) deployment.id ∧
      sessionsFor (tickLoop settings tick (fun _ => db) 0 0 [] deployments).statements
          deployment.id =
        sessionsFor ((tick.round settings db deployment).statements deployment)
          deployment.id := by
  refine createdFor_of_survives hids hroom hmem fun hran front failing back hsplit _ hstops => ?_
  obtain ⟨harchived, holder⟩ :=
    hlast deployment hmem hran failing (by simp [hsplit]) hstops
  refine ⟨harchived, ?_⟩
  rw [hsplit] at hmem hdescending
  rcases List.mem_append.mp hmem with hown | hlater
  · exact hown
  · exfalso
    rcases List.mem_cons.mp hlater with rfl | hback
    · exact lt_irrefl _ holder
    · obtain ⟨-, hpair, -⟩ := List.pairwise_append.mp hdescending
      exact lt_asymm holder ((List.pairwise_cons.mp hpair).1 deployment hback)

/-! ## Isolation -/

/-- The limits of a tick leave room for all deployments. -/
structure Tick.HasRoom (settings : DeploymentSettings) (tick : Tick) (db : DeploymentDb) :
    Prop where
  page : (db.deployments.filter fun row =>
    row.workspaceId = tick.workspaceId ∧ row.archivedAt = none).length ≤ 1000
  limit : tick.dueCount settings db (listDeployments db tick.workspaceId) ≤ tick.limit

theorem Tick.committed_keeping
    (hids : (db.deployments.map Deployment.id).Nodup) (hroom : tick.HasRoom settings db)
    (kept : Deployment → Bool) :
    tick.committed settings (db.keeping kept) =
      (tickLoop settings tick (fun _ => db.keeping kept) 0 0 []
        ((listDeployments db tick.workspaceId).filter kept)).statements := by
  unfold Tick.committed runDueScheduledDeployments
  rw [listDeployments_keeping hids hroom.page]

theorem Tick.HasRoom.limit_filter
    (hroom : tick.HasRoom settings db) (kept : Deployment → Bool) :
    tick.dueCount settings db ((listDeployments db tick.workspaceId).filter kept) ≤
      tick.limit :=
  (List.filter_sublist.countP_le).trans hroom.limit

theorem isolated_of_failuresLast
    (hids : (db.deployments.map Deployment.id).Nodup) (hroom : tick.HasRoom settings db)
    (hlast : FailuresLast settings tick db (listDeployments db tick.workspaceId)) :
    Isolated settings tick db := by
  intro deployment hmem kept hkept _
  set listed := listDeployments db tick.workspaceId with hlisted
  have hlistedIds : (listed.map Deployment.id).Nodup := listDeployments_ids hids _
  have hdescending : Descending Deployment.age listed :=
    listDeployments_descending hids _
  have hall := createdFor_tick hlistedIds hdescending hroom.limit hlast hmem
  have hfiltered : FailuresLast settings tick db (listed.filter kept) :=
    fun running hrunning hran failing hfailing =>
      hlast running (List.mem_of_mem_filter hrunning) hran failing
        (List.mem_of_mem_filter hfailing)
  have hfew := @createdFor_tick settings tick (db.keeping kept) deployment
    (listed.filter kept) (hlistedIds.sublist (List.filter_sublist.map _))
    (hdescending.sublist List.filter_sublist) (hroom.limit_filter kept) hfiltered
    (List.mem_filter.mpr ⟨hmem, hkept⟩)
  rw [Tick.committed_keeping hids hroom]
  exact ⟨hall.1.trans hfew.1.symm, hall.2.trans hfew.2.symm⟩

theorem runsFor_ran
    {outcome : RunOutcome} (hround : tick.round settings db deployment = .ran outcome) :
    runsFor ((tick.round settings db deployment).statements deployment) deployment.id =
      [outcome.run] := by
  rw [runsFor_round, hround]
  exact if_pos rfl

/-- An isolated deployment has its run although others fail. -/
theorem Isolated.runsFor_eq
    (hisolated : Isolated settings tick db)
    (hids : (db.deployments.map Deployment.id).Nodup) (hroom : tick.HasRoom settings db)
    (hmem : deployment ∈ listDeployments db tick.workspaceId) {outcome : RunOutcome}
    (hround : tick.round settings db deployment = .ran outcome) :
    runsFor (tick.committed settings db) deployment.id = [outcome.run] := by
  have hstops : ∀ other ∈ db.deployments,
      (!(tick.round settings db other).stops) = false →
        (tick.round settings db other).stops = true := by
    intro other _ hother
    simpa using hother
  have hkept : (!(tick.round settings db deployment).stops) = true := by
    rw [hround]
    rfl
  rw [(hisolated deployment hmem _ hkept hstops).1, Tick.committed_keeping hids hroom]
  have hnone : ∀ other ∈ (listDeployments db tick.workspaceId).filter
      (fun other => !(tick.round settings db other).stops),
      (tick.round settings (db.keeping fun other =>
        !(tick.round settings db other).stops) other).stops = false := by
    intro other hother
    have hgoes : (tick.round settings db other).stops = false := by
      simpa using (List.mem_filter.mp hother).2
    exact hgoes
  have hran : 0 + tick.ranCount settings db ((listDeployments db tick.workspaceId).filter
      fun other => !(tick.round settings db other).stops) ≤ tick.limit := by
    rw [Nat.zero_add]
    exact Tick.ranCount_le_dueCount.trans (hroom.limit_filter _)
  rw [tickLoop_of_no_stop hnone hran, List.nil_append]
  have hown := @createdFor_written settings tick db deployment
    ((listDeployments db tick.workspaceId).filter
      fun other => !(tick.round settings db other).stops)
    ((listDeployments_ids hids _).sublist (List.filter_sublist.map _))
    (List.mem_filter.mpr ⟨hmem, hkept⟩)
  exact hown.1.trans (runsFor_ran hround)

def Visit.isArchived : Visit → Bool
  | .archived _ => true
  | .skipped | .ran _ | .raised _ => false

theorem failuresLast_of_isolated
    (hids : (db.deployments.map Deployment.id).Nodup) (hroom : tick.HasRoom settings db)
    (hisolated : Isolated settings tick db) :
    FailuresLast settings tick db (listDeployments db tick.workspaceId) := by
  intro running hrunning hran failing hfailing hstops
  obtain ⟨outcome, hround⟩ :
      ∃ outcome, tick.round settings db running = .ran outcome := by
    cases hround : tick.round settings db running with
    | ran outcome => exact ⟨outcome, rfl⟩
    | skipped | archived error | raised error => simp [hround, Visit.isRan] at hran
  have hruns := hisolated.runsFor_eq hids hroom hrunning hround
  have hlistedIds := listDeployments_ids hids tick.workspaceId
  constructor
  · cases hfailed : tick.round settings db failing with
    | archived error => exact ⟨error, rfl⟩
    | skipped | ran other => simp [hfailed, Visit.stops] at hstops
    | raised error =>
        -- Without the archived ones the first failure takes everything back.
        exfalso
        let kept : Deployment → Bool := fun other =>
          !(tick.round settings db other).isArchived
        have hdropped : ∀ other ∈ db.deployments, kept other = false →
            (tick.round settings db other).stops = true := by
          intro other _ hother
          cases hcase : tick.round settings db other with
          | archived error => rfl
          | skipped | ran outcome | raised error =>
              simp [kept, hcase, Visit.isArchived] at hother
        have hkept : kept running = true := by simp [kept, hround, Visit.isArchived]
        have hsame := (hisolated running hrunning kept hkept hdropped).1
        rw [hruns, Tick.committed_keeping hids hroom] at hsame
        rcases first_stop settings tick db
            ((listDeployments db tick.workspaceId).filter kept) with
          hnone | ⟨front, first, back, hsplit, hfront, hfirst⟩
        · have hmem : failing ∈ (listDeployments db tick.workspaceId).filter kept :=
            List.mem_filter.mpr ⟨hfailing, by simp [kept, hfailed, Visit.isArchived]⟩
          have hgoes := hnone failing hmem
          rw [hfailed] at hgoes
          cases hgoes
        · have hfirstKept : kept first = true := by
            have hmem : first ∈ (listDeployments db tick.workspaceId).filter kept := by
              rw [hsplit]
              simp
            exact (List.mem_filter.mp hmem).2
          obtain ⟨raised, hraised⟩ : ∃ error,
              tick.round settings db first = .raised error := by
            cases hcase : tick.round settings db first with
            | raised error => exact ⟨error, rfl⟩
            | archived error => simp [kept, hcase, Visit.isArchived] at hfirstKept
            | skipped | ran outcome => simp [hcase, Visit.stops] at hfirst
          have hlimit := hroom.limit_filter kept
          rw [hsplit] at hlimit hsame
          have hnothing :=
            @tick_of_raised settings tick (db.keeping kept) front back first
            raised hfront hraised hlimit
          rw [hnothing] at hsame
          cases hsame
  · have hdescending := listDeployments_descending hids tick.workspaceId
    rcases first_stop settings tick db (listDeployments db tick.workspaceId) with
      hnone | ⟨front, first, back, hsplit, hfront, hfirst⟩
    · rw [hnone failing hfailing] at hstops
      cases hstops
    · have hlimit := hroom.limit
      have hsurvives := survives_of_runs hlistedIds hlimit hrunning (by
        rw [show (tickLoop settings tick (fun _ => db) 0 0 []
          (listDeployments db tick.workspaceId)).statements =
            tick.committed settings db from rfl, hruns]
        simp)
      obtain ⟨-, hown⟩ := hsurvives front first back hsplit hfront hfirst
      rw [hsplit] at hfailing hdescending
      have hlater : failing ∈ first :: back := by
        rcases List.mem_append.mp hfailing with hearlier | hlater
        · rw [hfront failing hearlier] at hstops
          cases hstops
        · exact hlater
      exact (List.pairwise_append.mp hdescending).2.2 running hown failing hlater

end

/-! ## Failures -/

section

variable {settings : DeploymentSettings} {tick : Tick} {db : DeploymentDb}
  {deployment : Deployment} {dueAt : Time}

/-- The agent is gone or archived. -/
def AgentUnusable (context : DeploymentContext) (surroundings : Surroundings)
    (data : Dict) : Prop :=
  ∃ agentId version,
    deploymentAgentRef context.calendar.toPython (Dict.get data "agent") =
      .ok (agentId, version) ∧
    ∀ agent, getAgent surroundings.agents context.workspaceId agentId = some agent →
      agent.archivedAt ≠ none

/-- A vault can not be given to the session, or a resource can not be attached. -/
def SessionUnmakeable (context : DeploymentContext) (draws : RunDraws)
    (surroundings : Surroundings) (data : Dict) (agent : Agent) : Prop :=
  (∃ error, validateDeploymentVaultIds context.calendar.toPython surroundings
      context.workspaceId (Dict.get data "vault_ids") = .error error) ∨
    ∃ given error, normalizeDeploymentResources (Dict.get data "resources") = .ok given ∧
      attachSessionResources (context.attachments draws) surroundings
        { id := draws.sessionId, workspaceId := agent.workspaceId }
        [] given = .error error

theorem round_of_due
    (hdue : scheduledDeploymentDueAt
      (settings.context tick.workspaceId) db.runs deployment
      tick.now = .ok (some dueAt)) :
    tick.round settings db deployment =
      match tick.runDue settings deployment dueAt with
      | .ok outcome => .ran outcome
      | .error (.archived error) => .archived error
      | .error (.raised error) => .raised error := by
  unfold Tick.round Tick.visit
  rewrite [hdue]
  rfl

/-- A due deployment without a usable agent ends the tick. -/
theorem round_stops_of_agent
    (hdue : scheduledDeploymentDueAt
      (settings.context tick.workspaceId) db.runs deployment
      tick.now = .ok (some dueAt))
    (hagent : AgentUnusable (settings.context tick.workspaceId)
      (tick.surroundings deployment.id) deployment.data) :
    (tick.round settings db deployment).stops = true := by
  obtain ⟨agentId, version, href, hnone⟩ := hagent
  rw [round_of_due hdue]
  cases hrun : tick.runDue settings deployment dueAt with
  | error failure => cases failure <;> rfl
  | ok outcome =>
      exfalso
      unfold Tick.runDue runDeploymentResource at hrun
      obtain ⟨-, -, hrun⟩ := bind_eq_ok.mp hrun
      obtain ⟨-, -, hrun⟩ := bind_eq_ok.mp hrun
      obtain ⟨⟨⟩, hcheck, -⟩ := bind_eq_ok.mp hrun
      unfold checkRunAgent at hcheck
      obtain ⟨found, hfound, hcheck⟩ := bind_eq_ok.mp hcheck
      rw [lift_eq_ok, href, Except.ok.injEq] at hfound
      subst hfound
      dsimp only at hcheck
      split at hcheck
      · cases hcheck
      next agent hagent => exact raiseIf_eq_ok.mp hcheck (hnone agent hagent)

theorem dataAfterRun_get
    {calendar : Calendar} {now : Time} {data runInput result : Dict} {key : String}
    (hresult : dataAfterRun calendar now data runInput = .ok result)
    (hkey : key ≠ "schedule") : Dict.get result key = Dict.get data key := by
  unfold dataAfterRun at hresult
  split at hresult
  · unfold rescheduledData at hresult
    obtain ⟨schedule, -, hresult⟩ := bind_eq_ok.mp hresult
    split at hresult
    · obtain ⟨upcoming, -, hresult⟩ := bind_eq_ok.mp hresult
      cases hresult
      exact Dict.get_set_other _ hkey.symm
    · cases hresult
      rfl
  · cases hresult
    rfl

/-- A tick gives a run nothing but the trigger and its instant. -/
theorem tickInput_contains
    (calendar : Calendar) {key : String} (htrigger : key ≠ "trigger")
    (hscheduled : key ≠ "scheduled_for") :
    Dict.contains (tickInput calendar dueAt) key = false := by
  simp [tickInput, Dict.contains, htrigger.symm, hscheduled.symm]

theorem tickInput_or
    (calendar : Calendar) {key : String} (htrigger : key ≠ "trigger")
    (hscheduled : key ≠ "scheduled_for") (value : Json) :
    (Dict.get (tickInput calendar dueAt) key).or value = value := by
  rw [Dict.get_of_not_contains (tickInput_contains calendar htrigger hscheduled)]
  rfl

theorem tickInput_givenOr
    (calendar : Calendar) {key : String} (htrigger : key ≠ "trigger")
    (hscheduled : key ≠ "scheduled_for") (data : Dict) :
    givenOr (tickInput calendar dueAt) data key = Dict.get data key := by
  rw [givenOr, tickInput_contains calendar htrigger hscheduled]
  rfl

/-- So does one whose session can not be made. -/
theorem round_stops_of_session
    {agent : Agent} {version : ℤ} {environment : EnvironmentRow}
    (hdue : scheduledDeploymentDueAt
      (settings.context tick.workspaceId) db.runs deployment
      tick.now = .ok (some dueAt))
    (hrefs : (Dict.get deployment.data "agent").truthy = true ∧
      (Dict.get deployment.data "environment_id").truthy = true)
    (hagent : findRunAgent (settings.context tick.workspaceId)
      (tick.surroundings deployment.id) (Dict.get deployment.data "agent") =
        .ok (agent, version))
    (henvironment : findRunEnvironment (settings.context tick.workspaceId)
      (tick.surroundings deployment.id) (Dict.get deployment.data "environment_id") =
        .ok environment)
    (hsession : SessionUnmakeable (settings.context tick.workspaceId)
      (tick.draws deployment.id) (tick.surroundings deployment.id) deployment.data
      agent) :
    (tick.round settings db deployment).stops = true := by
  rw [round_of_due hdue]
  cases hrun : tick.runDue settings deployment dueAt with
  | error failure => cases failure <;> rfl
  | ok outcome =>
      exfalso
      unfold Tick.runDue runDeploymentResource at hrun
      obtain ⟨-, -, hrun⟩ := bind_eq_ok.mp hrun
      obtain ⟨-, -, hrun⟩ := bind_eq_ok.mp hrun
      obtain ⟨-, -, hrun⟩ := bind_eq_ok.mp hrun
      obtain ⟨data, hdata, hrun⟩ := bind_eq_ok.mp hrun
      obtain ⟨run, -, hrun⟩ := bind_eq_ok.mp hrun
      obtain ⟨⟨completed, session⟩, hcompleted, -⟩ := bind_eq_ok.mp hrun
      rw [lift_eq_ok] at hdata hcompleted
      have hkept : ∀ key, key ≠ "schedule" →
          Dict.get data key = Dict.get deployment.data key :=
        fun key hkey => dataAfterRun_get hdata hkey
      unfold maybeCreateDeploymentSession at hcompleted
      dsimp only at hcompleted
      rw [tickInput_or _ (by decide) (by decide), tickInput_or _ (by decide) (by decide),
        hkept "agent" (by decide), hkept "environment_id" (by decide)] at hcompleted
      rw [hrefs.1, hrefs.2, Bool.and_self, if_pos rfl, hagent] at hcompleted
      change completeRun run (findRunEnvironment _ _ _ >>= _) = _ at hcompleted
      rw [henvironment] at hcompleted
      cases hmade : createRunSession (settings.context tick.workspaceId)
          (tick.draws deployment.id) (tick.surroundings deployment.id) deployment data
          (tickInput settings.calendar dueAt) agent version environment with
      | error error =>
          change completeRun run (SessionFailure.lift _ >>= _) = _ at hcompleted
          rw [hmade] at hcompleted
          cases hcompleted
      | ok made =>
          unfold createRunSession at hmade
          dsimp only at hmade
          obtain ⟨metadata, -, hmade⟩ := bind_eq_ok.mp hmade
          obtain ⟨vaultIds, hvaultIds, hmade⟩ := bind_eq_ok.mp hmade
          obtain ⟨title, -, hmade⟩ := bind_eq_ok.mp hmade
          obtain ⟨given, hgiven, hmade⟩ := bind_eq_ok.mp hmade
          obtain ⟨resources, hresources, -⟩ := bind_eq_ok.mp hmade
          rw [tickInput_givenOr _ (by decide) (by decide),
            hkept "vault_ids" (by decide)] at hvaultIds
          rw [tickInput_givenOr _ (by decide) (by decide),
            hkept "resources" (by decide)] at hgiven
          rcases hsession with ⟨error, hvaults⟩ | ⟨other, error, hother, hattach⟩
          · rw [hvaults] at hvaultIds
            cases hvaultIds
          · obtain rfl := Except.ok.inj (hgiven.symm.trans hother)
            rw [hattach] at hresources
            cases hresources

end

/-! ## Ticks that end early -/

/-- The tick ends without an exception. -/
def Tick.Completes (settings : DeploymentSettings) (tick : Tick) (db : DeploymentDb) :
    Prop :=
  (runDueScheduledDeployments settings tick fun _ => db).error = none

def NoFailure (settings : DeploymentSettings) (tick : Tick) (db : DeploymentDb) : Prop :=
  ∀ deployment ∈ listDeployments db tick.workspaceId,
    (tick.round settings db deployment).stops = false

theorem tick_completes_iff
    {settings : DeploymentSettings} {tick : Tick} {db : DeploymentDb}
    (hroom : tick.HasRoom settings db) :
    tick.Completes settings db ↔ NoFailure settings tick db := by
  have hlimit := hroom.limit
  unfold Tick.Completes runDueScheduledDeployments NoFailure
  generalize listDeployments db tick.workspaceId = listed at hlimit
  rcases first_stop settings tick db listed with
    hnone | ⟨front, failing, back, rfl, hfront, hfailing⟩
  · exact iff_of_true (tickLoop_completes hnone) hnone
  · refine iff_of_false ?_ ?_
    · have hopen := ranCount_lt_of_stop hfailing hlimit
      rw [tickLoop_append hfront hopen]
      exact tickLoop_error hopen hfailing
    · intro hnone
      rw [hnone failing (by simp)] at hfailing
      cases hfailing

/-- A tick keeps deployments apart exactly if those which fail come last and none of them
raises; it also goes on to its end exactly if none fails. -/
theorem tick_isolated_iff
    {settings : DeploymentSettings} {tick : Tick} {db : DeploymentDb}
    (hids : (db.deployments.map Deployment.id).Nodup) (hroom : tick.HasRoom settings db) :
    (Isolated settings tick db ↔
      FailuresLast settings tick db (listDeployments db tick.workspaceId)) ∧
    (Isolated settings tick db ∧ tick.Completes settings db ↔
      NoFailure settings tick db) := by
  have hiff : Isolated settings tick db ↔
      FailuresLast settings tick db (listDeployments db tick.workspaceId) :=
    ⟨failuresLast_of_isolated hids hroom, isolated_of_failuresLast hids hroom⟩
  refine ⟨hiff, ?_⟩
  rw [tick_completes_iff hroom, hiff]
  refine and_iff_right_of_imp fun hnone running hrunning hran failing hfailing hstops =>
    ?_
  rw [hnone failing hfailing] at hstops
  cases hstops

/-! ## A sample tick -/

def sampleDeploymentVault : Resource where
  id := "vault_1"
  workspaceId := "wrkspc_default"
  resourceType := .vault
  status := .active
  data := []
  createdAt := 0

/-- A deployment, and a newer one with a vault. -/
def sampleVaultCalls : List DeploymentCall :=
  [sampleDeploymentCall "a" 0 (.create (sampleDeploymentBody "nightly" [])),
   .request "wrkspc_default"
     { sampleSurroundings with resources := [sampleDeploymentVault] }
    (sampleRunDraws "b" 1)
    (.create (sampleDeploymentBody "vaulted" [("vault_ids", .list [.str "vault_1"])]))]

def sampleVaultDeployments : DeploymentDb :=
  (LabelledRuns.run (deploymentStep sampleDeploymentSettings) emptyDeployments
    sampleVaultCalls).get (by decide)

/-- The vault is gone when the tick comes. -/
def sampleVaultTick : Tick where
  workspaceId := "wrkspc_default"
  surroundings := fun _ => sampleSurroundings
  draws := fun deploymentId => sampleRunDraws ("t" ++ deploymentId) 120000000
  now := 60000000
  limit := 100

theorem sample_tick_isolated_iff :
    (Isolated sampleDeploymentSettings sampleVaultTick sampleVaultDeployments ↔
      FailuresLast sampleDeploymentSettings sampleVaultTick sampleVaultDeployments
        (listDeployments sampleVaultDeployments "wrkspc_default")) ∧
    (Isolated sampleDeploymentSettings sampleVaultTick sampleVaultDeployments ∧
        sampleVaultTick.Completes sampleDeploymentSettings sampleVaultDeployments ↔
      NoFailure sampleDeploymentSettings sampleVaultTick sampleVaultDeployments) :=
  @tick_isolated_iff sampleDeploymentSettings sampleVaultTick sampleVaultDeployments
    (by decide) ⟨by decide, by decide⟩

/-- The deployment without a vault is not run, but it is run if the other one is not
there. -/
theorem vault_stops_neighbour :
    ¬Isolated sampleDeploymentSettings sampleVaultTick sampleVaultDeployments := by
  intro hisolated
  have hlisted : ∃ deployment ∈ listDeployments sampleVaultDeployments "wrkspc_default",
      deployment.id = "deploy_a0" := by
    decide
  obtain ⟨deployment, hmem, hid⟩ := hlisted
  have hsame := (hisolated deployment hmem (fun row => row.id = "deploy_a0")
    (by simp [hid]) (by decide)).1
  rw [hid] at hsame
  revert hsame
  decide

end ManagedAgents
