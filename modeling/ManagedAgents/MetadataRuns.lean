import ManagedAgents.CredentialResponses
import ManagedAgents.DeploymentStatuses
import ManagedAgents.EffectiveTools
import ManagedAgents.MetadataWrites

/-!
# Metadata in every run

The metadata of all rows stay valid as long as a validation has room for its key, a
purge meets no secret in them and the metadata of a requested run fit its session.
-/

namespace ManagedAgents

open Fallible LabelledRuns ReadCommitted

/-! ## User profiles -/

def ProfilesHold (profiles : List UserProfile) : Prop :=
  ∀ profile ∈ profiles, HoldsMetadata profile.data

theorem ProfileCall.holds
    {call : ProfileCall} {view : ℕ → List UserProfile} {current next : List UserProfile}
    (hcurrent : ProfilesHold current) (hbody : call.body view current = some next) :
    ProfilesHold next := by
  unfold ProfileCall.body at hbody
  split at hbody
  next body =>
    split at hbody
    · cases hbody
    next profile hprofile =>
      split at hbody
      · cases hbody
      · cases hbody
        unfold createUserProfile at hprofile
        simp only [bind_eq_ok, pure_eq_ok] at hprofile
        obtain ⟨data, hdata, name, -, rfl⟩ := hprofile
        intro row hrow
        rcases List.mem_append.mp hrow with hrow | hrow
        · exact hcurrent row hrow
        · obtain rfl := List.mem_singleton.mp hrow
          exact normalizeUserProfileData_holds hdata
  next profileId body =>
    split at hbody
    · cases hbody
    next read written hupdate =>
      cases hbody
      unfold updateUserProfile at hupdate
      simp only [bind_eq_ok, pure_eq_ok, Prod.mk.injEq] at hupdate
      obtain ⟨profile, -, merged, -, data, hdata, name, -, -, rfl⟩ := hupdate
      have hwritten := normalizeUserProfileData_holds hdata
      intro row hrow
      obtain ⟨old, hold, rfl⟩ := List.mem_map.mp hrow
      split
      · unfold flushProfile
        dsimp only
        split
        · exact hcurrent old hold
        · exact hwritten
      · exact hcurrent old hold

/-! ## Sessions -/

def SessionsHold (sessions : List ManagedSession) : Prop :=
  ∀ session ∈ sessions, StoredMetadata session.metadata

theorem SessionCreateCall.session_metadata
    {call : SessionCreateCall} {session : ManagedSession}
    (hsession : call.session = .ok session) : StoredMetadata session.metadata := by
  unfold SessionCreateCall.session at hsession
  simp only [bind_eq_ok, pure_eq_ok] at hsession
  obtain ⟨⟨agent, version⟩, -, environment, -, vaultIds, -, metadata, hmetadata,
    resources, -, rfl⟩ := hsession
  exact normalizeMetadata_stored hmetadata

theorem SessionsHold.insert
    {sessions next : List ManagedSession} {session : ManagedSession}
    (hsessions : SessionsHold sessions) (hsession : StoredMetadata session.metadata)
    (hinsert : insertSession sessions session = some next) : SessionsHold next := by
  unfold insertSession at hinsert
  split at hinsert
  · cases hinsert
  · cases hinsert
    intro row hrow
    rcases List.mem_append.mp hrow with hrow | hrow
    · exact hsessions row hrow
    · obtain rfl := List.mem_singleton.mp hrow
      exact hsession

/-- The metadata of an update come from a merge. -/
theorem sessionUpdateOf_metadata
    {py : Python} {session : ManagedSession} {version : Option AgentVersion}
    {body : SessionUpdateRequest} {update : SessionUpdate} {metadata : Dict}
    (hupdate : sessionUpdateOf py session version body = .ok update)
    (hmetadata : update.metadata = some metadata) : StoredMetadata metadata := by
  unfold sessionUpdateOf at hupdate
  simp only [bind, Except.bind, pure, Except.pure, throw, throwThe,
    MonadExceptOf.throw] at hupdate
  cases hpatch : body.metadata with
  | none =>
      simp only [hpatch] at hupdate
      repeat' split at hupdate
      all_goals cases hupdate
      all_goals cases hmetadata
  | some patch =>
      simp only [hpatch] at hupdate
      cases hmerged : mergeMetadata (.dict session.metadata) patch with
      | error error =>
          simp only [hmerged, Except.map_error] at hupdate
          repeat' split at hupdate
          all_goals cases hupdate
      | ok merged =>
          simp only [hmerged, Except.map_ok] at hupdate
          repeat' split at hupdate
          all_goals cases hupdate
          all_goals cases hmetadata
          all_goals exact mergeMetadata_stored hmerged

theorem commitOutcome_metadata
    {py : Python} {history : List SessionEvent} {result : RuntimeResult}
    {start tx : Tx} (htx : commitOutcome py history result start = .commit tx) :
    tx.session.metadata = start.session.metadata := by
  unfold commitOutcome at htx
  split at htx
  · cases htx
  simp only at htx
  split at htx
  · cases htx
  next middle blockingIds hloop =>
  obtain ⟨added, blocked, happends, -⟩ := appendToolEvents_appends hloop
  have hmiddle : middle.session.metadata = start.session.metadata := by
    rw [happends.session]
  split at htx
  · cases htx
    exact hmiddle
  split at htx
  · cases htx
  next evaluation _ =>
  cases htx
  obtain ⟨texts, htexts⟩ := appendFinalText_appends py result middle
  have hfinal : (appendFinalText py result middle).session.metadata =
      middle.session.metadata := by
    rw [htexts.session]
  cases evaluation with
  | none => exact hfinal.trans hmiddle
  | some evaluation => exact hfinal.trans hmiddle

theorem failTurn_metadata
    {py : Python} {exc : PyException} {start tx : Tx}
    (htx : failTurn py exc start = .ok tx) :
    tx.session.metadata = start.session.metadata := by
  unfold failTurn at htx
  split at htx
  · cases htx
  · unfold markTransientRuntimeFailure at htx
    simp only at htx
    repeat' split at htx
    all_goals cases htx
    all_goals rfl
  · cases htx
    rfl

theorem requestHandle_metadata
    {py : Python} {call : Request} {start tx : Tx} (htx : call.handle py start = .ok tx) :
    tx.session.metadata = start.session.metadata ∨
      StoredMetadata tx.session.metadata := by
  cases call with
  | sendEvents environment inputs =>
      obtain ⟨-, -, rfl⟩ := sendEvents_ok_iff.mp htx
      obtain ⟨added, happends, -, -⟩ := sendLoop_appends py start {} inputs
      have hsent : (sendLoop py start {} inputs).1.session.metadata =
          start.session.metadata := by
        rw [happends.session]
      refine .inl (Eq.trans ?_ hsent)
      unfold settleSend
      repeat' split
      all_goals rfl
  | updateSession response body =>
      simp only [Request.handle, updateSessionRequest] at htx
      split at htx
      · cases htx
      next update hupdate =>
        cases htx
        cases hmetadata : update.metadata with
        | none =>
            refine .inl ?_
            simp [updateSession, appendEvent, hmetadata]
        | some metadata =>
            refine .inr ?_
            have hstored := sessionUpdateOf_metadata hupdate hmetadata
            simpa [updateSession, appendEvent, hmetadata] using hstored
  | archiveSession =>
      simp only [Request.handle, ManagedAgents.archiveSession] at htx
      repeat' split at htx
      all_goals cases htx
      exact .inl rfl
  | deleteSession =>
      simp only [Request.handle, ManagedAgents.deleteSession] at htx
      repeat' split at htx
      all_goals cases htx
      exact .inl rfl
  | cancelSession =>
      simp only [Request.handle, ManagedAgents.cancelSession] at htx
      repeat' split at htx
      all_goals cases htx
      exact .inl rfl
  | resumeSession environment =>
      obtain ⟨-, rfl⟩ := resumeSession_ok_iff.mp htx
      exact .inl rfl
  | archiveSessionThread threadId threadExists =>
      simp only [Request.handle, ManagedAgents.archiveSessionThread] at htx
      repeat' split at htx
      all_goals cases htx
      all_goals exact .inl rfl

/-- A transaction keeps the metadata of the session or merges a patch into them. -/
theorem Transaction.body_metadata
    {py : Python} {transaction : Transaction} {start tx : Tx}
    (hbody : transaction.body py start = some tx) :
    tx.session.metadata = start.session.metadata ∨
      StoredMetadata tx.session.metadata := by
  cases transaction with
  | request call => exact requestHandle_metadata (Except.toOption_eq_some.mp hbody)
  | start =>
      obtain ⟨-, rfl⟩ := startTurn_eq_some_iff.mp hbody
      exact .inl rfl
  | load rows =>
      obtain ⟨⟨loaded, written⟩, hloaded, rfl⟩ := Option.map_eq_some_iff.mp hbody
      have hok := Except.toOption_eq_some.mp hloaded
      unfold loadTurn at hok
      repeat' split at hok
      all_goals cases hok
      obtain ⟨added, happends, -⟩ :=
        appendRuntimeContextEvents_appends py start rows.context
      exact .inl (by rw [happends.session])
  | outcome history result =>
      exact .inl (commitOutcome_metadata (TurnReply.commit?_eq_some.mp hbody))
  | failure exc => exact .inl (failTurn_metadata (Except.toOption_eq_some.mp hbody))

theorem SessionCall.holds
    {py : Python} {call : SessionCall} {view : ℕ → List ManagedSession}
    {current next : List ManagedSession} (hview : SessionsHold (view 0))
    (hcurrent : SessionsHold current) (hbody : call.body py view current = some next) :
    SessionsHold next := by
  unfold SessionCall.body at hbody
  split at hbody
  · cases hbody
  next read hread =>
    obtain ⟨tx, htx, rfl⟩ := Option.map_eq_some_iff.mp hbody
    have hheld := hview read (List.mem_of_find?_eq_some hread)
    have hwritten : StoredMetadata tx.session.metadata := by
      rcases Transaction.body_metadata htx with hsame | hstored
      · exact hsame ▸ hheld
      · exact hstored
    intro row hrow
    obtain ⟨old, hold, rfl⟩ := List.mem_map.mp hrow
    split
    · unfold flushSession flushColumn
      dsimp only
      split
      · exact hcurrent old hold
      · exact hwritten
    · exact hcurrent old hold

/-! ## Deployments -/

def DeploymentsHold (deployments : List Deployment) : Prop :=
  ∀ deployment ∈ deployments,
    HoldsMetadata deployment.data ∧ ShortText 64 deployment.id

/-- The metadata of a requested run fit the session that they are for. -/
def DeploymentCall.Keeps : DeploymentCall → Prop
  | .request _ _ _ (.run _ body) =>
      ∀ given ∈ (toDict (Dict.get body "metadata")).toOption, FitsRun given
  | _ => True

instance (call : DeploymentCall) : Decidable call.Keeps := by
  unfold DeploymentCall.Keeps
  split <;> infer_instance

section

variable {settings : DeploymentSettings} {call : DeploymentCall} {view : DeploymentView}
  {held : Deployment}

theorem createdDeploymentData_holds
    {context : DeploymentContext} {draws : RunDraws} {surroundings : Surroundings}
    {body data : Dict} {status : DeploymentStatus}
    (hdata : createdDeploymentData context draws surroundings body = .ok (data, status)) :
    HoldsMetadata data := by
  unfold createdDeploymentData at hdata
  simp only [bind_eq_ok, pure_eq_ok, Prod.mk.injEq] at hdata
  obtain ⟨first, -, checked, -, written, -, normalized, hnormalized, rfl, -⟩ := hdata
  exact normalizeDeploymentData_holds hnormalized

theorem updatedDeploymentData_holds
    {context : DeploymentContext} {draws : RunDraws} {surroundings : Surroundings}
    {old body data : Dict} {status : DeploymentStatus}
    (hdata : updatedDeploymentData context draws surroundings old body =
      .ok (data, status)) : HoldsMetadata data := by
  unfold updatedDeploymentData at hdata
  simp only [bind_eq_ok, pure_eq_ok, Prod.mk.injEq] at hdata
  obtain ⟨merged, -, normalized, hnormalized, checked, hchecked, written, -, rfl, -⟩ :=
    hdata
  have hholds := normalizeDeploymentData_holds hnormalized
  unfold validateDeploymentDefinition at hchecked
  simp only [bind_eq_ok, pure_eq_ok] at hchecked
  obtain ⟨-, -, agentRef, -, -, -, -, -, -, -, -, -, rfl⟩ := hchecked
  exact hholds.set_other _ (by decide)

theorem dataAfterRun_holds
    {calendar : Calendar} {utcnow : Time} {data runInput after : Dict}
    (hdata : HoldsMetadata data)
    (hafter : dataAfterRun calendar utcnow data runInput = .ok after) :
    HoldsMetadata after := by
  unfold dataAfterRun at hafter
  split at hafter
  · unfold rescheduledData at hafter
    obtain ⟨schedule, -, hafter⟩ := bind_eq_ok.mp hafter
    split at hafter
    · obtain ⟨upcoming, -, hafter⟩ := bind_eq_ok.mp hafter
      cases hafter
      exact hdata.set_other _ (by decide)
    · cases hafter
      exact hdata
  · cases hafter
    exact hdata

theorem NewDeploymentData.holds
    {data : Dict} {status : DeploymentStatus} (hheld : HoldsMetadata held.data)
    (hdata : NewDeploymentData settings call held data status) : HoldsMetadata data := by
  cases hdata with
  | updated workspaceId surroundings draws body data status hcall hdata =>
      exact updatedDeploymentData_holds hdata
  | paused => exact (hheld.set_other _ (by decide)).set_other _ (by decide)
  | unpaused => exact (hheld.set_other _ (by decide)).pop_other (by decide)

theorem DeploymentChange.holds
    {columns : DeploymentColumns} {data : Dict} (hheld : HoldsMetadata held.data)
    (hchange : DeploymentChange settings call view held columns)
    (hcolumns : columns.data = some data) : HoldsMetadata data := by
  cases hchange with
  | written written status name hopen hdata hwritten =>
      subst hwritten
      simp only [updatedColumns] at hcolumns
      split at hcolumns
      · cases hcolumns
      · cases hcolumns
        exact hdata.holds hheld
  | archived now hwritten =>
      subst hwritten
      cases hcolumns
  | ran outcome hmakes hwritten =>
      subst hwritten
      simp only [updatedColumns] at hcolumns
      split at hcolumns
      · cases hcolumns
      · cases hcolumns
        obtain ⟨workspaceId, draws, creator, runInput, hof⟩ := hmakes.outcome
        exact dataAfterRun_holds hheld hof.data

theorem created_id_short
    {row : Deployment} (huuids : call.DrawsUuids)
    (hwrite : .insertDeployment row ∈ (call.answer settings view).statements) :
    ShortText 64 row.id := by
  obtain ⟨workspaceId, surroundings, draws, body, hcall, -, -⟩ :=
    (DeploymentCall.mem_answer hwrite).creation
  subst hcall
  obtain ⟨statements, hanswer, hmem⟩ := mem_of_answer hwrite
  unfold createDeployment at hanswer
  simp only [bind_eq_ok, pure_eq_ok] at hanswer
  obtain ⟨⟨data, status⟩, -, name, -, rfl⟩ := hanswer
  obtain rfl := DeploymentStatement.insertDeployment.inj (List.mem_singleton.mp hmem)
  have hfront : ShortText 32 "deploy_" := ⟨by decide, by decide⟩
  exact hfront.append (huuids 0)

/-- A row is there already or has the identifier that the call has drawn. -/
theorem deployment_id_short
    {current next : DeploymentDb} {row : Deployment}
    (hcurrent : DeploymentsHold current.deployments) (huuids : call.DrawsUuids)
    (hbody : call.body settings view current = some next)
    (hrow : row ∈ next.deployments) : ShortText 64 row.id := by
  unfold DeploymentCall.body at hbody
  rcases call.answer_inserts settings view with ⟨inserted, hinserted⟩ | hinserts
  · have hmem : .insertDeployment inserted ∈ (call.answer settings view).statements := by
      rw [hinserted]
      exact List.mem_singleton_self _
    rw [hinserted] at hbody
    obtain ⟨-, rfl⟩ := commit_insertDeployment hbody
    rcases List.mem_append.mp hrow with hrow | hrow
    · exact (hcurrent row hrow).2
    · obtain rfl := List.mem_singleton.mp hrow
      exact created_id_short huuids hmem
  · rw [commit_deployments hinserts hbody] at hrow
    obtain ⟨old, hold, rfl⟩ := List.mem_map.mp hrow
    rw [rowAfter_id]
    exact (hcurrent old hold).2

theorem deployment_holds
    {current next : DeploymentDb} {row : Deployment}
    (hids : ((view 0).deployments.map Deployment.id).Nodup)
    (hview : DeploymentsHold (view 0).deployments)
    (hcurrent : DeploymentsHold current.deployments)
    (hbody : call.body settings view current = some next)
    (hrow : row ∈ next.deployments) : HoldsMetadata row.data := by
  rcases DeploymentCall.row_cases hids hbody hrow with hkept | hinserted |
    ⟨old, hold, columns, hwrite, rfl⟩
  · exact (hcurrent row hkept).1
  · obtain ⟨workspaceId, surroundings, draws, body, -, hdata, -⟩ := hinserted.creation
    exact createdDeploymentData_holds hdata
  · obtain ⟨held, hheld, -, hchange⟩ := hwrite.change
    unfold DeploymentColumns.write
    cases hdata : columns.data with
    | none => exact (hcurrent old hold).1
    | some data => exact hchange.holds (hview held hheld).1 hdata

theorem DeploymentsHold.body
    {current next : DeploymentDb} (hids : ((view 0).deployments.map Deployment.id).Nodup)
    (hview : DeploymentsHold (view 0).deployments)
    (hcurrent : DeploymentsHold current.deployments) (huuids : call.DrawsUuids)
    (hbody : call.body settings view current = some next) :
    DeploymentsHold next.deployments :=
  fun _ hrow => ⟨deployment_holds hids hview hcurrent hbody hrow,
    deployment_id_short hcurrent huuids hbody hrow⟩

/-! ## Sessions of runs -/

theorem maybeCreateDeploymentSession_metadata
    {context : DeploymentContext} {draws : RunDraws} {surroundings : Surroundings}
    {data runInput : Dict} {session : DeploymentSession}
    (hsession : maybeCreateDeploymentSession context draws surroundings held data
      runInput = .ok (some session)) :
    runSessionMetadata held.id draws.runId runInput = .ok session.metadata := by
  unfold maybeCreateDeploymentSession at hsession
  dsimp only at hsession
  split at hsession
  · simp only [bind_eq_ok, pure_eq_ok, session_lift_eq_ok, Option.some.injEq] at hsession
    obtain ⟨⟨agent, version⟩, -, environment, -, created, hcreated, rfl⟩ := hsession
    unfold createRunSession at hcreated
    simp only [bind_eq_ok, pure_eq_ok] at hcreated
    obtain ⟨metadata, hmetadata, vaultIds, -, title, -, given, -, resources, -, events, -,
      rfl⟩ := hcreated
    exact hmetadata
  · cases hsession

theorem runDeploymentResource_metadata
    {context : DeploymentContext} {draws : RunDraws} {surroundings : Surroundings}
    {creator : RunCreator} {runInput : Dict} {outcome : RunOutcome}
    {session : DeploymentSession}
    (hrun : runDeploymentResource context draws surroundings creator held runInput =
      .ok outcome) (hsession : outcome.session = some session) :
    runSessionMetadata held.id draws.runId runInput = .ok session.metadata := by
  unfold runDeploymentResource at hrun
  simp only [bind_eq_ok, pure_eq_ok, lift_eq_ok] at hrun
  obtain ⟨-, -, -, -, -, -, data, -, run, -, ⟨completed, made⟩, hcompleted, rfl⟩ := hrun
  obtain rfl : made = some session := hsession
  unfold completeRun at hcompleted
  split at hcompleted
  next => cases hcompleted
  next created hcreated =>
    cases hcompleted
    exact maybeCreateDeploymentSession_metadata hcreated
  next => cases hcompleted
  next => cases hcompleted

theorem FitsRun.nil : FitsRun [] where
  distinct := List.nodup_nil
  fields := by simp
  room := by decide

theorem runSession_holds
    {outcome : RunOutcome} {session : DeploymentSession}
    (hview : DeploymentsHold (view 0).deployments) (huuids : call.DrawsUuids)
    (hkeeps : call.Keeps) (hmakes : call.Makes settings view held outcome)
    (hsession : outcome.session = some session) : StoredMetadata session.metadata := by
  have hid : held.id.length ≤ MAX_METADATA_VALUE_CHARS :=
    (hview held hmakes.mem_view).2.1.trans (by decide)
  have hrunId : ∀ draws : RunDraws, IsUuidHex draws.uuidHex →
      draws.runId.length ≤ MAX_METADATA_VALUE_CHARS := by
    intro draws hdraws
    have hfront : ShortText 7 "deprun_" := ⟨by decide, by decide⟩
    exact (hfront.append (hdraws 0)).1.trans (by decide)
  cases hmakes with
  | requested workspaceId surroundings draws body hcall hheld hrun =>
      subst hcall
      have hmetadata := runDeploymentResource_metadata hrun hsession
      refine (runSessionMetadata_stored hid (hrunId draws huuids) hmetadata).mpr ?_
      obtain ⟨given, hgiven, -⟩ := bind_eq_ok.mp hmetadata
      exact ⟨given, hgiven, hkeeps given (Except.toOption_eq_some.mpr hgiven)⟩
  | due tick query hcall hlisted hvisit =>
      subst hcall
      obtain ⟨dueAt, -, hrun⟩ := Tick.visit_eq_ran hvisit
      have hmetadata := runDeploymentResource_metadata hrun hsession
      refine (runSessionMetadata_stored hid (hrunId _ (huuids held.id)) hmetadata).mpr ?_
      exact ⟨[], rfl, FitsRun.nil⟩

end

/-! ## The system -/

structure MetadataDb.Sound (db : MetadataDb) : Prop where
  resources : MetadataRows db.resources
  profiles : ProfilesHold db.profiles
  ids : (db.deployments.deployments.map Deployment.id).Nodup
  deployments : DeploymentsHold db.deployments.deployments
  sessions : SessionsHold db.sessions

theorem MetadataDb.empty_sound : MetadataDb.empty.Sound where
  resources := fun _ hrow => absurd hrow List.not_mem_nil
  profiles := fun _ hprofile => absurd hprofile List.not_mem_nil
  ids := List.nodup_nil
  deployments := fun _ hdeployment => absurd hdeployment List.not_mem_nil
  sessions := fun _ hsession => absurd hsession List.not_mem_nil

theorem MetadataWorld.start_ordered :
    MetadataWorld.start.Ordered MetadataDb.Sound fun _ _ => True := by
  constructor <;> simp [Timeline.history, MetadataWorld.start, MetadataDb.empty_sound]

/-- What a call must meet to leave valid metadata behind. -/
def MetadataCall.Keeps (call : MetadataCall) (view : MetadataView) : Prop :=
  match call with
  | .container call => call.Keeps fun query => (view query).resources
  | .deployment call _ => call.Keeps
  | .profile _ | .createSession _ | .session _ => True

instance (call : MetadataCall) (view : MetadataView) : Decidable (call.Keeps view) := by
  unfold MetadataCall.Keeps
  split <;> infer_instance

theorem deploymentBody_sound
    {settings : DeploymentSettings} {call : DeploymentCall} {view : MetadataView}
    {current next : MetadataDb} (huuids : call.DrawsUuids) (hkeeps : call.Keeps)
    (hview : (view 0).Sound) (hcurrent : current.Sound)
    (hbody : deploymentBody settings call view current = some next) : next.Sound := by
  unfold deploymentBody at hbody
  obtain ⟨deployments, hcommit, rfl⟩ := Option.map_eq_some_iff.mp hbody
  have hcall : call.body settings (fun query => (view query).deployments)
      current.deployments = some deployments := hcommit
  have hdeployments : DeploymentsHold deployments.deployments := by
    refine DeploymentsHold.body ?_ ?_ hcurrent.deployments huuids hcall
    · exact hview.ids
    · exact hview.deployments
  refine ⟨hcurrent.resources, hcurrent.profiles, DeploymentCall.ids hcurrent.ids hcall,
    hdeployments, ?_⟩
  intro session hsession
  rcases List.mem_append.mp hsession with hsession | hsession
  · exact hcurrent.sessions session hsession
  · obtain ⟨created, hcreated, rfl⟩ := List.mem_map.mp hsession
    obtain ⟨held, outcome, hmakes, hmade⟩ := DeploymentCall.new_session hcreated
    exact runSession_holds hview.deployments huuids hkeeps hmakes hmade

theorem MetadataCall.sound
    {settings : MetadataSettings} {call : MetadataCall} {view : MetadataView}
    {current next : MetadataDb} (hkeeps : call.Keeps view) (hview : (view 0).Sound)
    (hcurrent : current.Sound) (hbody : call.body settings view current = some next) :
    next.Sound := by
  cases call with
  | container call =>
      obtain ⟨rows, hrows, rfl⟩ := Option.map_eq_some_iff.mp hbody
      exact { hcurrent with
        resources := call.sound hview.resources hcurrent.resources hkeeps hrows }
  | profile call =>
      obtain ⟨rows, hrows, rfl⟩ := Option.map_eq_some_iff.mp hbody
      exact { hcurrent with profiles := call.holds hcurrent.profiles hrows }
  | deployment call huuids =>
      exact deploymentBody_sound huuids hkeeps hview hcurrent hbody
  | createSession call =>
      obtain ⟨rows, hrows, rfl⟩ := Option.map_eq_some_iff.mp hbody
      obtain ⟨session, hsession, hinsert⟩ := Option.bind_eq_some_iff.mp hrows
      have hmetadata := call.session_metadata (Except.toOption_eq_some.mp hsession)
      exact { hcurrent with sessions := hcurrent.sessions.insert hmetadata hinsert }
  | session call =>
      obtain ⟨rows, hrows, rfl⟩ := Option.map_eq_some_iff.mp hbody
      exact { hcurrent with
        sessions := call.holds hview.sessions hcurrent.sessions hrows }

/-! ## Runs -/

/-- The metadata of all rows. -/
def MetadataDb.metadata (db : MetadataDb) : List Json :=
  ((db.resources.filter CarriesMetadata).map fun row => Dict.get row.data "metadata") ++
    (db.profiles.map fun profile => Dict.get profile.data "metadata") ++
    (db.deployments.deployments.map fun row => Dict.get row.data "metadata") ++
    db.sessions.map fun session => .dict session.metadata

/-- The metadata are within the limits, their check changes nothing, and they accept
every patch that is within the limits and has room. -/
def KeptMetadata (value : Json) : Prop :=
  ∃ metadata, value = .dict metadata ∧ ValidMetadata metadata ∧
    normalizeMetadata value = .ok metadata ∧
    ∀ patch, (patch.map Prod.fst).Nodup → (∀ field ∈ patch, ValidMetadataKey field.1) →
      (∀ field ∈ patch, emptied field.2 = false → ValidMetadataField field) →
      metadata.length + (addedFields metadata patch).length ≤ MAX_METADATA_KEYS →
      ∃ merged, mergeMetadata value (.dict patch) = .ok merged

theorem StoredMetadata.kept
    {metadata : Dict} (hmetadata : StoredMetadata metadata) :
    KeptMetadata (.dict metadata) := by
  refine ⟨metadata, rfl, hmetadata.toValidMetadata, hmetadata.normalize, ?_⟩
  intro patch hpatch hkeys hvalues hroom
  rw [mergeMetadata_eq hmetadata.normalize]
  exact exists_mergeMetadataFields_eq_ok hpatch hkeys hvalues hroom

theorem HoldsMetadata.kept
    {data : Dict} (hdata : HoldsMetadata data) :
    KeptMetadata (Dict.get data "metadata") := by
  obtain ⟨metadata, hget, hmetadata⟩ := hdata
  rw [hget]
  exact hmetadata.kept

theorem MetadataDb.Sound.kept
    {db : MetadataDb} (hdb : db.Sound) : ∀ value ∈ db.metadata, KeptMetadata value := by
  intro value hvalue
  unfold MetadataDb.metadata at hvalue
  simp only [List.mem_append, List.mem_map, List.mem_filter, decide_eq_true_eq] at hvalue
  rcases hvalue with ((⟨row, ⟨hrow, hcarries⟩, rfl⟩ | ⟨profile, hprofile, rfl⟩) |
    ⟨deployment, hdeployment, rfl⟩) | ⟨session, hsession, rfl⟩
  · exact (hdb.resources row hrow hcarries).metadata.kept
  · exact (hdb.profiles profile hprofile).kept
  · exact (hdb.deployments deployment hdeployment).1.kept
  · exact (hdb.sessions session hsession).kept

/-- The metadata of all rows stay valid in every run whose commits meet the
conditions. -/
theorem stored_metadata_kept
    {settings : MetadataSettings} {calls : List (MetadataCall × List ℕ)}
    {world : MetadataWorld}
    (hkeeps : AllSteps (metadataStep settings)
      (OnCommit (MetadataCall.body settings) fun call view _ => call.Keeps view)
      MetadataWorld.start calls)
    (hrun : run (metadataStep settings) MetadataWorld.start calls = some world) :
    ∀ db ∈ world.history, ∀ value ∈ db.metadata, KeptMetadata value := by
  have hordered := @run_ordered _ _ (MetadataCall.body settings) _ MetadataDb.Sound
    (fun _ _ => True) (fun _ => trivial) (fun _ _ _ _ _ => trivial)
    (fun timeline label ages next hallowed hview _ _ hcurrent hbody =>
      ⟨MetadataCall.sound (hallowed (by rw [hbody]; rfl)) (hview 0) hcurrent hbody,
        trivial⟩)
    MetadataWorld.start world calls MetadataWorld.start_ordered hkeeps hrun
  intro db hdb
  exact (hordered.states db hdb).kept

/-! ## A vault, a validated credential, a profile and a run -/

def sampleMetadataUuid : String := "0123456789abcdef0123456789abcdef"

theorem sampleUuid_short : ShortText 32 sampleMetadataUuid := by decide

def sampleTimestamp : String := "2024-01-01T00:00:00+00:00"

theorem sampleTimestamp_short : ShortText 32 sampleTimestamp := by decide

def sampleMetadataSettings : MetadataSettings where
  py := { sampleInterpreter with isoformat := fun _ => sampleTimestamp }
  encryption := sampleOpenSettings
  deployments := sampleDeploymentSettings
  timestamps := fun _ => sampleTimestamp_short

def sampleUuidSupply : Supply where
  uuidHex := fun _ => sampleMetadataUuid
  clock := fun _ => 0

def sampleContainerCall (request : ContainerRequest) : MetadataCall × List ℕ :=
  (.container {
    workspaceId := "wrkspc_default"
    supply := sampleUuidSupply
    uuids := fun _ => sampleUuid_short
    nonce := fun _ => List.replicate 12 0
    request := request }, [])

def sampleProfileCall (request : ProfileRequest) : MetadataCall × List ℕ :=
  (.profile {
    workspaceId := "wrkspc_default"
    supply := sampleUuidSupply
    request := request }, [])

def sampleUuidDraws : RunDraws where
  uuidHex := fun _ => sampleMetadataUuid
  clock := fun _ => 0
  files := fun _ => sampleFileContext

def sampleFittingCall (sent : DeploymentRequest) : MetadataCall × List ℕ :=
  (.deployment (.request "wrkspc_default" sampleSurroundings sampleUuidDraws sent)
    fun _ => sampleUuid_short, [])

def sampleMetadataCalls : List (MetadataCall × List ℕ) :=
  [sampleContainerCall (.createVault
     [("display_name", .str "keys"), ("metadata", .dict [("team", .str "core")])]),
   sampleContainerCall (.createCredential ("vault_" ++ sampleMetadataUuid)
     (sampleTokenBody "abc").fields),
   sampleContainerCall (.validateCredential ("vault_" ++ sampleMetadataUuid)
     ("cred_" ++ sampleMetadataUuid)),
   sampleProfileCall (.create [("metadata", .dict [("seat", .str "7")])]),
   sampleFittingCall (.create (sampleDeploymentBody "nightly" [])),
   sampleFittingCall (.run ("deploy_" ++ sampleMetadataUuid)
     [("metadata", .dict [("cause", .str "manual")])])]

def sampleMetadataWorld : MetadataWorld :=
  (run (metadataStep sampleMetadataSettings) MetadataWorld.start sampleMetadataCalls).get
    (by decide +kernel)

theorem sample_stored_metadata :
    sampleMetadataWorld.current.metadata.length = 5 ∧
      ∀ db ∈ sampleMetadataWorld.history, ∀ value ∈ db.metadata, KeptMetadata value :=
  ⟨by decide +kernel,
   @stored_metadata_kept sampleMetadataSettings sampleMetadataCalls sampleMetadataWorld
     (by decide +kernel) (Option.some_get _).symm⟩

end ManagedAgents
