import ManagedAgents.DeploymentWrites
import ManagedAgents.FileMetadata
import ManagedAgents.Library.LabelledRuns

/-!
# The status of a deployment

A deployment which is not archived is active or paused, in its column and in its
data.  It gives a reason exactly if it is paused, unless it was created as paused with
null as the reason.  Once it is archived it stays as it is.
-/

namespace ManagedAgents

open Fallible LabelledRuns NewestPage

/-! ## Data -/

/-- The data say the status, and have the key of a reason exactly for a pause. -/
structure StatusData (data : Dict) (status : DeploymentStatus) : Prop where
  live : status = .active ∨ status = .paused
  same : Dict.get data "status" = .str status.name
  keyed : Dict.contains data "paused_reason" = true ↔ status = .paused

/-- What stands under the key of a reason is a reason. -/
def ReasonData (data : Dict) : Prop :=
  Dict.contains data "paused_reason" = true → Dict.get data "paused_reason" ≠ .null

/-- The body asks for a pause and gives null as the reason. -/
def PausesForNull (py : Python) (body : Dict) : Prop :=
  py.textOf (Dict.get body "status") "active" = "paused" ∧
    Dict.contains body "paused_reason" = true ∧ Dict.get body "paused_reason" = .null

instance (py : Python) (body : Dict) : Decidable (PausesForNull py body) := by
  unfold PausesForNull
  infer_instance

/-- The change leaves the status and its reason alone. -/
structure KeepsStatus (before after : Dict) : Prop where
  status : Dict.get after "status" = Dict.get before "status"
  keyed : Dict.contains after "paused_reason" = Dict.contains before "paused_reason"
  reason : Dict.get after "paused_reason" = Dict.get before "paused_reason"

section

variable {before after data : Dict} {status : DeploymentStatus}

theorem KeepsStatus.refl (data : Dict) : KeepsStatus data data := ⟨rfl, rfl, rfl⟩

theorem KeepsStatus.set
    (hkeeps : KeepsStatus before after) (key : String) (value : Json)
    (hkey : key ≠ "status" ∧ key ≠ "paused_reason") :
    KeepsStatus before (Dict.set after key value) := by
  constructor
  · rw [Dict.get_set_other _ hkey.1, hkeeps.status]
  · rw [Dict.contains_set_of_ne _ hkey.2, hkeeps.keyed]
  · rw [Dict.get_set_other _ hkey.2, hkeeps.reason]

theorem KeepsStatus.setdefault
    (hkeeps : KeepsStatus before after) (key : String) (value : Json)
    (hkey : key ≠ "status" ∧ key ≠ "paused_reason") :
    KeepsStatus before (Dict.setdefault after key value) := by
  unfold Dict.setdefault
  split
  · exact hkeeps
  · exact hkeeps.set key value hkey

theorem StatusData.of_keeps
    (hdata : StatusData before status) (hkeeps : KeepsStatus before after) :
    StatusData after status :=
  ⟨hdata.live, hkeeps.status.trans hdata.same, by rw [hkeeps.keyed]; exact hdata.keyed⟩

theorem ReasonData.of_keeps
    (hdata : ReasonData before)
    (hkeeps : KeepsStatus before after) : ReasonData after := by
  unfold ReasonData
  rw [hkeeps.keyed, hkeeps.reason]
  exact hdata

theorem DeploymentStatus.name_injective : Function.Injective DeploymentStatus.name := by
  intro first second hname
  cases first <;> cases second <;> first | rfl | exact absurd hname (by decide)

theorem StatusData.ofJson
    (hdata : StatusData data status) :
    DeploymentStatus.ofJson (Dict.get data "status") = .ok status := by
  rw [hdata.same]
  cases status <;> rfl

/-- Equal dictionaries have the same status. -/
theorem StatusData.of_equal
    {other : DeploymentStatus} (hdata : StatusData data status)
    (hbefore : StatusData before other) (hequal : Dict.equal data before = true) :
    StatusData before status := by
  have hget : Dict.get data "status" ≠ .null := by
    rw [hdata.same]
    exact Json.noConfusion
  have hsame : other = status := by
    apply DeploymentStatus.name_injective
    rcases Dict.get_equal_of_equal hequal hget with hsame | hsame
    · rw [hdata.same, hbefore.same] at hsame
      exact (Json.str.inj hsame).symm
    · rw [hdata.same, hbefore.same] at hsame
      simpa [Json.equal, eq_comm] using hsame
  exact hsame ▸ hbefore

theorem statusData_paused (data : Dict) (value : Json) :
    StatusData (Dict.set (Dict.set data "status" (.str "paused")) "paused_reason" value)
      .paused := by
  refine ⟨.inr rfl, ?_, iff_of_true (Dict.contains_set_self _ _ _) rfl⟩
  rw [Dict.get_set_other _ (by decide), Dict.get_set_same]
  rfl

theorem statusData_active (data : Dict) :
    StatusData (Dict.pop (Dict.set data "status" (.str "active")) "paused_reason")
      .active := by
  refine ⟨.inl rfl, ?_, iff_of_false ?_ (by decide)⟩
  · rw [Dict.get_pop_other (by decide), Dict.get_set_same]
    rfl
  · simp [Dict.contains, Dict.pop]

theorem normalizeDeploymentStatus_data
    {py : Python} {result : Dict}
    (hresult : normalizeDeploymentStatus py data = .ok result) :
    ∃ status, StatusData result status ∧
      py.textOf (Dict.get data "status") "active" = status.name := by
  unfold normalizeDeploymentStatus at hresult
  dsimp only at hresult
  split at hresult
  next hpaused =>
    cases hresult
    refine ⟨.paused, ?_, hpaused⟩
    rw [hpaused]
    unfold Dict.setdefault
    split
    next hreason =>
      refine ⟨.inr rfl, ?_, iff_of_true hreason rfl⟩
      rw [Dict.get_set_same]
      rfl
    next => exact statusData_paused data manualPause
  next =>
    split at hresult
    next hactive =>
      cases hresult
      refine ⟨.active, ?_, hactive⟩
      rw [hactive]
      exact statusData_active data
    next => cases hresult

/-- Without a reason only a null that was there already is left. -/
theorem normalizeDeploymentStatus_reason
    {py : Python} {result : Dict}
    (hresult : normalizeDeploymentStatus py data = .ok result) :
    ReasonData result ↔ ¬ PausesForNull py data := by
  unfold normalizeDeploymentStatus at hresult
  dsimp only at hresult
  split at hresult
  next hpaused =>
    cases hresult
    have hkeyed (value : Json) : Dict.contains (Dict.set data "status" value)
        "paused_reason" = Dict.contains data "paused_reason" :=
      Dict.contains_set_of_ne value (by decide)
    have hget (value : Json) : Dict.get (Dict.set data "status" value)
        "paused_reason" = Dict.get data "paused_reason" :=
      Dict.get_set_other value (by decide)
    unfold Dict.setdefault ReasonData PausesForNull
    cases hreason : Dict.contains data "paused_reason" with
    | true => simp [hkeyed, hget, hreason, hpaused]
    | false => simp [hkeyed, hreason, manualPause]
  next hunpaused =>
    split at hresult
    · cases hresult
      refine iff_of_true (fun hreason => ?_) fun hnull => hunpaused hnull.1
      simp [Dict.contains, Dict.pop] at hreason
    · cases hresult

theorem normalizeDeploymentData_keeps
    {calendar : Calendar} {now : Time} {result : Dict}
    (hresult : normalizeDeploymentData calendar now data = .ok result) :
    ∃ first, normalizeDeploymentStatus calendar.toPython data = .ok first ∧
      KeepsStatus first result := by
  unfold normalizeDeploymentData at hresult
  simp only [bind_eq_ok] at hresult
  obtain ⟨first, hfirst, agent, -, resources, -, vaultIds, -, metadata, -, hresult⟩ :=
    hresult
  refine ⟨first, hfirst, ?_⟩
  have hagent := (KeepsStatus.refl first).set "agent" (.dict agent) (by decide)
  have henvironment := hagent.setdefault "environment_id" (.str "") (by decide)
  have hevents := henvironment.setdefault "initial_events" (.list []) (by decide)
  have hresources := hevents.set "resources" (.list resources) (by decide)
  have hvaults := hresources.set "vault_ids" (.list vaultIds) (by decide)
  have hkeeps := hvaults.set "metadata" (.dict metadata) (by decide)
  split at hresult
  · cases hresult
    exact hkeeps
  · simp only [bind_eq_ok, pure_eq_ok] at hresult
    obtain ⟨schedule, -, rfl⟩ := hresult
    exact hkeeps.set _ _ (by decide)

theorem normalizeDeploymentData_data
    {calendar : Calendar} {now : Time} {result : Dict}
    (hresult : normalizeDeploymentData calendar now data = .ok result) :
    ∃ status, StatusData result status ∧
      calendar.textOf (Dict.get data "status") "active" = status.name := by
  obtain ⟨first, hfirst, hkeeps⟩ := normalizeDeploymentData_keeps hresult
  obtain ⟨status, hstatus, hname⟩ := normalizeDeploymentStatus_data hfirst
  exact ⟨status, hstatus.of_keeps hkeeps, hname⟩

theorem normalizeDeploymentData_reason
    {calendar : Calendar} {now : Time} {result : Dict}
    (hresult : normalizeDeploymentData calendar now data = .ok result) :
    ReasonData result ↔ ¬ PausesForNull calendar.toPython data := by
  obtain ⟨first, hfirst, hkeeps⟩ := normalizeDeploymentData_keeps hresult
  rw [← normalizeDeploymentStatus_reason hfirst]
  unfold ReasonData
  rw [hkeeps.keyed, hkeeps.reason]

theorem validateDeploymentDefinition_keeps
    {py : Python} {surroundings : Surroundings} {workspaceId : String} {result : Dict}
    (hresult : validateDeploymentDefinition py surroundings workspaceId data =
      .ok result) :
    KeepsStatus data result := by
  unfold validateDeploymentDefinition at hresult
  simp only [bind_eq_ok, pure_eq_ok] at hresult
  obtain ⟨-, -, agentRef, -, -, -, -, -, -, -, -, -, rfl⟩ := hresult
  exact (KeepsStatus.refl data).set _ _ (by decide)

theorem createdDeploymentData_data
    {context : DeploymentContext} {draws : RunDraws} {surroundings : Surroundings}
    {body : Dict}
    (hdata : createdDeploymentData context draws surroundings body = .ok (data, status)) :
    StatusData data status := by
  unfold createdDeploymentData at hdata
  simp only [bind_eq_ok, pure_eq_ok] at hdata
  obtain ⟨first, hfirst, second, hsecond, given, hgiven, last, hlast, hsame⟩ := hdata
  cases hsame
  obtain ⟨before, hbefore, -⟩ := normalizeDeploymentData_data hfirst
  have hvalidated := hbefore.of_keeps (validateDeploymentDefinition_keeps hsecond)
  obtain rfl : before = status := by
    rw [hvalidated.ofJson] at hgiven
    exact Except.ok.inj hgiven
  obtain ⟨after, hafter, hname⟩ := normalizeDeploymentData_data hlast
  obtain rfl : before = after := by
    apply DeploymentStatus.name_injective
    rw [← hname, hvalidated.same]
    rcases hvalidated.live with rfl | rfl <;> rfl
  exact hafter

theorem StatusData.pausesForNull
    {py : Python} (hdata : StatusData data status) (hnull : ¬ ReasonData data) :
    PausesForNull py data := by
  unfold ReasonData at hnull
  rw [Classical.not_imp, not_not] at hnull
  refine ⟨?_, hnull⟩
  rw [hdata.same, hdata.keyed.mp hnull.1]
  rfl

/-- A new deployment lacks a reason exactly if it was given null for one. -/
theorem createdDeploymentData_reason
    {context : DeploymentContext} {draws : RunDraws} {surroundings : Surroundings}
    {body : Dict}
    (hdata : createdDeploymentData context draws surroundings body = .ok (data, status)) :
    ReasonData data ↔ ¬ PausesForNull context.calendar.toPython body := by
  unfold createdDeploymentData at hdata
  simp only [bind_eq_ok, pure_eq_ok] at hdata
  obtain ⟨first, hfirst, second, hsecond, given, -, last, hlast, hsame⟩ := hdata
  cases hsame
  have hkeeps := validateDeploymentDefinition_keeps hsecond
  have hreason : ReasonData second ↔ ReasonData first := by
    unfold ReasonData
    rw [hkeeps.keyed, hkeeps.reason]
  rw [normalizeDeploymentData_reason hlast, ← normalizeDeploymentData_reason hfirst,
    ← hreason, not_iff_comm]
  obtain ⟨before, hbefore, -⟩ := normalizeDeploymentData_data hfirst
  exact ⟨(hbefore.of_keeps hkeeps).pausesForNull, fun hnull hdata =>
    hdata hnull.2.1 hnull.2.2⟩

/-- A patch takes the key away instead of writing null. -/
theorem mergeData_reason
    {held update merged : Dict} (hheld : ReasonData held)
    (hmerged : mergeData held update = .ok merged) : ReasonData merged := by
  induction update generalizing held with
  | nil =>
      cases hmerged
      exact hheld
  | cons field rest ih =>
      obtain ⟨key, value⟩ := field
      rw [mergeData] at hmerged
      split at hmerged
      next hmetadata =>
        simp only [bind_eq_ok, pure_eq_ok] at hmerged
        obtain ⟨metadata, -, _, rfl, hmerged⟩ := hmerged
        refine ih ?_ hmerged
        unfold ReasonData
        rw [Dict.contains_set_of_ne _ (by decide), Dict.get_set_other _ (by decide)]
        exact hheld
      next =>
        split at hmerged
        next hvalue =>
          simp only [bind_eq_ok, pure_eq_ok] at hmerged
          obtain ⟨_, rfl, hmerged⟩ := hmerged
          refine ih ?_ hmerged
          by_cases hkey : key = "paused_reason"
          · intro hreason
            simp [hkey, Dict.contains, Dict.pop] at hreason
          · unfold ReasonData
            rw [Dict.contains_pop_other hkey, Dict.get_pop_other hkey]
            exact hheld
        next hvalue =>
          simp only [bind_eq_ok, pure_eq_ok] at hmerged
          obtain ⟨_, rfl, hmerged⟩ := hmerged
          refine ih ?_ hmerged
          by_cases hkey : key = "paused_reason"
          · intro _ hnull
            rw [hkey, Dict.get_set_same] at hnull
            exact hvalue (.inl hnull)
          · unfold ReasonData
            rw [Dict.contains_set_of_ne _ hkey, Dict.get_set_other _ hkey]
            exact hheld

theorem updatedDeploymentData_reason
    {context : DeploymentContext} {draws : RunDraws} {surroundings : Surroundings}
    {held body : Dict} (hheld : ReasonData held)
    (hdata : updatedDeploymentData context draws surroundings held body =
      .ok (data, status)) : ReasonData data := by
  unfold updatedDeploymentData at hdata
  simp only [bind_eq_ok, pure_eq_ok] at hdata
  obtain ⟨merged, hmerged, first, hfirst, second, hsecond, given, -, hsame⟩ := hdata
  cases hsame
  have hreason := mergeData_reason hheld hmerged
  have hnormalized := (normalizeDeploymentData_reason hfirst).mpr
    fun hnull => hreason hnull.2.1 hnull.2.2
  exact hnormalized.of_keeps (validateDeploymentDefinition_keeps hsecond)

theorem updatedDeploymentData_data
    {context : DeploymentContext} {draws : RunDraws} {surroundings : Surroundings}
    {held body : Dict}
    (hdata : updatedDeploymentData context draws surroundings held body =
      .ok (data, status)) :
    StatusData data status := by
  unfold updatedDeploymentData at hdata
  simp only [bind_eq_ok, pure_eq_ok] at hdata
  obtain ⟨merged, -, first, hfirst, second, hsecond, given, hgiven, hsame⟩ := hdata
  cases hsame
  obtain ⟨before, hbefore, -⟩ := normalizeDeploymentData_data hfirst
  have hvalidated := hbefore.of_keeps (validateDeploymentDefinition_keeps hsecond)
  obtain rfl : before = status := by
    rw [hvalidated.ofJson] at hgiven
    exact Except.ok.inj hgiven
  exact hvalidated

theorem dataAfterRun_keeps
    {calendar : Calendar} {now : Time} {runInput result : Dict}
    (hresult : dataAfterRun calendar now data runInput = .ok result) :
    KeepsStatus data result := by
  unfold dataAfterRun at hresult
  split at hresult
  · unfold rescheduledData at hresult
    simp only [bind_eq_ok] at hresult
    obtain ⟨schedule, -, hresult⟩ := hresult
    split at hresult
    · simp only [bind_eq_ok, pure_eq_ok] at hresult
      obtain ⟨upcoming, -, rfl⟩ := hresult
      exact (KeepsStatus.refl data).set _ _ (by decide)
    · cases hresult
      exact KeepsStatus.refl data
  · cases hresult
    exact KeepsStatus.refl data

theorem NewDeploymentData.reasonData
    {settings : DeploymentSettings} {call : DeploymentCall} {held : Deployment}
    (hheld : ReasonData held.data)
    (hnew : NewDeploymentData settings call held data status) : ReasonData data := by
  cases hnew with
  | updated workspaceId surroundings draws body data status hcall hdata =>
      exact updatedDeploymentData_reason hheld hdata
  | paused =>
      unfold pausedData
      intro _
      rw [Dict.get_set_same]
      decide
  | unpaused =>
      intro hreason
      simp [unpausedData, Dict.contains, Dict.pop] at hreason

theorem NewDeploymentData.statusData
    {settings : DeploymentSettings} {call : DeploymentCall} {held : Deployment}
    (hnew : NewDeploymentData settings call held data status) : StatusData data status := by
  cases hnew with
  | updated workspaceId surroundings draws body data status hcall hdata =>
      exact updatedDeploymentData_data hdata
  | paused => exact statusData_paused held.data manualPause
  | unpaused => exact statusData_active held.data

end

/-! ## Rows -/

structure StatusRow (row : Deployment) : Prop where
  live : row.archivedAt = none → StatusData row.data row.status
  archived : row.archivedAt ≠ none → row.status = .archived

structure StatusRows (db : DeploymentDb) : Prop where
  ids : (db.deployments.map Deployment.id).Nodup
  rows : ∀ row ∈ db.deployments, StatusRow row

section

variable {settings : DeploymentSettings} {call : DeploymentCall} {view : DeploymentView}
  {held row : Deployment} {db next : DeploymentDb}

theorem updatedColumns_write
    (data : Dict) (name : Option String) (status : Option DeploymentStatus) :
    ((updatedColumns held data name status).write held).data =
        (if Dict.equal data held.data then held.data else data) ∧
      ((updatedColumns held data name status).write held).status =
        status.getD held.status ∧
      ((updatedColumns held data name status).write held).archivedAt =
        held.archivedAt := by
  refine ⟨?_, ?_, rfl⟩
  · unfold updatedColumns DeploymentColumns.write
    dsimp only
    split <;> rfl
  · unfold updatedColumns DeploymentColumns.write
    dsimp only
    split
    next hsame =>
      rw [hsame]
      rfl
    next => rfl

theorem statusData_updated
    {data : Dict} {status : DeploymentStatus} (hheld : StatusRow held)
    (hopen : held.archivedAt = none) (hdata : StatusData data status) :
    StatusData (if Dict.equal data held.data then held.data else data) status := by
  split
  next hequal => exact hdata.of_equal (hheld.live hopen) hequal
  next => exact hdata

/-- What a call writes over a row keeps its status in order. -/
theorem StatusRow.change
    {columns : DeploymentColumns} (hheld : StatusRow held)
    (hchange : DeploymentChange settings call view held columns) :
    StatusRow (columns.write held) := by
  cases hchange with
  | written data status name hopen hdata hcolumns =>
      subst hcolumns
      obtain ⟨hwritten, hstatus, harchived⟩ :=
        @updatedColumns_write held data name (some status)
      constructor
      · intro _
        rw [hwritten, hstatus]
        exact statusData_updated hheld hopen hdata.statusData
      · intro hnot
        rw [harchived] at hnot
        exact absurd hopen hnot
  | archived now hcolumns =>
      subst hcolumns
      constructor
      · intro hnone
        cases hnone
      · intro _
        unfold archivedColumns DeploymentColumns.write
        dsimp only
        split
        next harchived => exact harchived
        next => rfl
  | ran outcome hmakes hcolumns =>
      subst hcolumns
      obtain ⟨workspaceId, draws, creator, runInput, houtcome⟩ := hmakes.outcome
      obtain ⟨hwritten, hstatus, harchived⟩ :=
        @updatedColumns_write held outcome.data none none
      have hopen := houtcome.isOpen
      constructor
      · intro _
        rw [hwritten, hstatus]
        exact statusData_updated hheld hopen
          ((hheld.live hopen).of_keeps (dataAfterRun_keeps houtcome.data))
      · intro hnot
        rw [harchived] at hnot
        exact absurd hopen hnot

theorem held_eq
    (hids : (db.deployments.map Deployment.id).Nodup) (hheld : held ∈ db.deployments)
    (hrow : row ∈ db.deployments) (hid : held.id = row.id) : held = row :=
  List.inj_on_of_nodup_map hids hheld hrow hid

theorem StatusRows.step
    (hdb : StatusRows db) (hstep : deploymentStep settings db call = some next) :
    StatusRows next := by
  refine ⟨DeploymentCall.ids hdb.ids hstep, fun row hrow => ?_⟩
  rcases DeploymentCall.row_cases hdb.ids hstep hrow with
    hrow | hcreated | ⟨old, hold, columns, hwrite, rfl⟩
  · exact hdb.rows row hrow
  · obtain ⟨workspaceId, surroundings, draws, body, -, hdata, hopen⟩ := hcreated.creation
    refine ⟨fun _ => createdDeploymentData_data hdata, fun hnot => ?_⟩
    exact absurd hopen hnot
  · obtain ⟨held, hheld, hid, hchange⟩ := hwrite.change
    obtain rfl := held_eq hdb.ids hheld hold hid
    exact (hdb.rows held hheld).change hchange

/-! ## Reasons -/

/-- A deployment gives a reason exactly if it is paused. -/
def PausedForReason (row : Deployment) : Prop :=
  Dict.get row.data "paused_reason" ≠ .null ↔ row.status = .paused

/-- Every deployment that is not archived gives a reason exactly if it is paused. -/
def PausesReasoned (db : DeploymentDb) : Prop :=
  ∀ row ∈ db.deployments, row.archivedAt = none → PausedForReason row

def DeploymentCall.pausesForNull (py : Python) : DeploymentCall → Prop
  | .request _ _ _ (.create body) => PausesForNull py body
  | _ => False

instance (py : Python) (call : DeploymentCall) : Decidable (call.pausesForNull py) := by
  unfold DeploymentCall.pausesForNull
  split <;> infer_instance

/-- No creation of a paused deployment with null as the reason is accepted. -/
def GivesReasons (settings : DeploymentSettings) (db : DeploymentDb)
    (call : DeploymentCall) : Prop :=
  call.pausesForNull settings.calendar.toPython →
    (call.answer settings fun _ => db).error ≠ none

instance (settings : DeploymentSettings) (db : DeploymentDb) (call : DeploymentCall) :
    Decidable (GivesReasons settings db call) := by
  unfold GivesReasons
  infer_instance

/-- No row that is not archived holds null under the key of a reason. -/
def ReasonRows (db : DeploymentDb) : Prop :=
  ∀ row ∈ db.deployments, row.archivedAt = none → ReasonData row.data

theorem StatusData.reasoned_iff
    (hstatus : StatusData row.data row.status) :
    PausedForReason row ↔ ReasonData row.data := by
  unfold PausedForReason ReasonData
  rw [← hstatus.keyed]
  constructor
  · exact fun hreasoned => hreasoned.mpr
  · refine fun hreason => ⟨fun hget => ?_, hreason⟩
    by_contra habsent
    exact hget (Dict.get_of_not_contains (Bool.eq_false_iff.mpr habsent))

theorem StatusRows.pausesReasoned_iff
    (hdb : StatusRows db) : PausesReasoned db ↔ ReasonRows db :=
  forall₂_congr fun row hrow =>
    forall_congr' fun hopen => ((hdb.rows row hrow).live hopen).reasoned_iff

/-- A creation that is answered without an error has added its row. -/
theorem created_row
    {workspaceId : String} {surroundings : Surroundings} {draws : RunDraws} {body : Dict}
    (hstep : deploymentStep settings db
      (.request workspaceId surroundings draws (.create body)) = some next)
    (herror : ((DeploymentCall.request workspaceId surroundings draws
      (.create body)).answer settings fun _ => db).error = none) :
    ∃ row ∈ next.deployments, row.archivedAt = none ∧
      createdDeploymentData (settings.context workspaceId) draws surroundings body =
        .ok (row.data, row.status) := by
  unfold deploymentStep DeploymentCall.body at hstep
  unfold DeploymentCall.answer DeploymentRequest.answer at hstep herror
  dsimp only at hstep herror
  cases hanswer : createDeployment (settings.context workspaceId) draws surroundings
      body with
  | error error =>
      rw [hanswer] at herror
      cases herror
  | ok statements =>
      rw [hanswer] at hstep
      unfold createDeployment at hanswer
      simp only [bind_eq_ok, pure_eq_ok] at hanswer
      obtain ⟨⟨data, status⟩, hdata, name, -, rfl⟩ := hanswer
      obtain ⟨-, rfl⟩ := commit_insertDeployment hstep
      exact ⟨_, List.mem_append_right _ List.mem_cons_self, rfl, hdata⟩

/-- A creation that is answered with an error has changed nothing. -/
theorem refused_creation
    {workspaceId : String} {surroundings : Surroundings} {draws : RunDraws} {body : Dict}
    (hstep : deploymentStep settings db
      (.request workspaceId surroundings draws (.create body)) = some next)
    (herror : ((DeploymentCall.request workspaceId surroundings draws
      (.create body)).answer settings fun _ => db).error ≠ none) : next = db := by
  unfold deploymentStep DeploymentCall.body at hstep
  unfold DeploymentCall.answer DeploymentRequest.answer at hstep herror
  dsimp only at hstep herror
  cases hanswer : createDeployment (settings.context workspaceId) draws surroundings
      body with
  | error error =>
      rw [hanswer] at hstep
      exact (Option.some.inj hstep).symm
  | ok statements =>
      rw [hanswer] at herror
      exact absurd rfl herror

/-- What a call writes over a row leaves it a reason. -/
theorem DeploymentChange.reasonData
    {columns : DeploymentColumns}
    (hheld : held.archivedAt = none → ReasonData held.data)
    (hchange : DeploymentChange settings call view held columns)
    (hopen : (columns.write held).archivedAt = none) :
    ReasonData (columns.write held).data := by
  have hupdated {data : Dict} {name : Option String} {status : Option DeploymentStatus}
      (hnone : held.archivedAt = none) (hdata : ReasonData data) :
      ReasonData ((updatedColumns held data name status).write held).data := by
    rw [(updatedColumns_write data name status).1]
    split
    · exact hheld hnone
    · exact hdata
  cases hchange with
  | written data status name hnone hdata hcolumns =>
      subst hcolumns
      exact hupdated hnone (hdata.reasonData (hheld hnone))
  | archived now hcolumns =>
      subst hcolumns
      cases hopen
  | ran outcome hmakes hcolumns =>
      subst hcolumns
      obtain ⟨workspaceId, draws, creator, runInput, houtcome⟩ := hmakes.outcome
      have hnone := houtcome.isOpen
      exact hupdated hnone ((hheld hnone).of_keeps (dataAfterRun_keeps houtcome.data))

theorem ReasonRows.step
    (hrows : ReasonRows db) (hdb : StatusRows db) (hgives : GivesReasons settings db call)
    (hstep : deploymentStep settings db call = some next) : ReasonRows next := by
  intro row hrow hopen
  rcases DeploymentCall.row_cases hdb.ids hstep hrow with
    hrow | hcreated | ⟨old, hold, columns, hwrite, rfl⟩
  · exact hrows row hrow hopen
  · obtain ⟨workspaceId, surroundings, draws, body, hcall, hdata, -⟩ := hcreated.creation
    subst hcall
    by_cases hnull : PausesForNull settings.calendar.toPython body
    · rw [refused_creation hstep (hgives hnull)] at hrow
      exact hrows row hrow hopen
    · exact (createdDeploymentData_reason hdata).mpr hnull
  · obtain ⟨held, hheld, hid, hchange⟩ := hwrite.change
    obtain rfl := held_eq hdb.ids hheld hold hid
    exact hchange.reasonData (hrows held hheld) hopen

/-- Only a creation with null as the reason leaves a pause without one. -/
theorem ReasonRows.step_iff
    (hrows : ReasonRows db) (hdb : StatusRows db)
    (hstep : deploymentStep settings db call = some next) :
    ReasonRows next ↔ GivesReasons settings db call := by
  refine ⟨fun hnext hnull herror => ?_, fun hgives => hrows.step hdb hgives hstep⟩
  unfold DeploymentCall.pausesForNull at hnull
  split at hnull
  · obtain ⟨row, hrow, hopen, hdata⟩ := created_row hstep herror
    exact (createdDeploymentData_reason hdata).mp (hnext row hrow hopen) hnull
  · exact hnull

/-! ## Runs of paused deployments -/

/-- The runs that are new are manual, or their deployment was not paused. -/
def SparesPaused (db next : DeploymentDb) : Prop :=
  ∃ added, next.runs = db.runs ++ added ∧
    ∀ run ∈ added, Dict.get run.data "trigger" ≠ .str "manual" →
      ∀ row ∈ db.deployments, row.id = run.deploymentId →
        row.status ≠ .paused ∧ Dict.get row.data "status" ≠ .str "paused"

theorem sparesPaused_step
    (hdb : StatusRows db) (hstep : deploymentStep settings db call = some next) :
    SparesPaused db next := by
  refine ⟨_, commit_runs hstep, fun run hrun htrigger row hrow hid => ?_⟩
  obtain ⟨held, outcome, hmakes, rfl⟩ := DeploymentCall.new_run hrun
  obtain ⟨workspaceId, draws, creator, runInput, houtcome⟩ := hmakes.outcome
  obtain rfl := held_eq hdb.ids hmakes.mem_view hrow
    (houtcome.deployment.symm.trans hid.symm)
  rw [houtcome.runTrigger] at htrigger
  have hunpaused := houtcome.trigger.resolve_right htrigger
  simpa [isDeploymentPaused] using hunpaused

/-! ## Archived deployments -/

/-- The archived row and what belongs to it are the same later. -/
structure Frozen (row : Deployment) (db later : DeploymentDb) : Prop where
  stays : row.id ∈ later.deployments.map Deployment.id
  same : ∀ now ∈ later.deployments, now.id = row.id →
    now.data = row.data ∧ now.status = row.status ∧ now.archivedAt ≠ none
  runs : (later.runs.filter fun run => run.deploymentId = row.id) =
    db.runs.filter fun run => run.deploymentId = row.id
  sessions : (later.sessions.filter fun session =>
      Dict.get session.metadata "deployment_id" = .str row.id) =
    db.sessions.filter fun session =>
      Dict.get session.metadata "deployment_id" = .str row.id

theorem filter_append_of_none
    {Row : Type} {rows added : List Row} {selected : Row → Bool}
    (hnone : ∀ row ∈ added, selected row = false) :
    (rows ++ added).filter selected = rows.filter selected := by
  have hempty : added.filter selected = [] :=
    List.filter_eq_nil_iff.mpr fun row hrow => by simp [hnone row hrow]
  rw [List.filter_append, hempty, List.append_nil]

/-- No run is made of an archived deployment. -/
theorem makes_not_archived
    {outcome : RunOutcome} (hdb : StatusRows db) (hrow : row ∈ db.deployments)
    (harchived : row.archivedAt ≠ none)
    (hmakes : call.Makes settings (fun _ => db) held outcome) : held.id ≠ row.id := by
  intro hid
  obtain rfl := held_eq hdb.ids hmakes.mem_view hrow hid
  obtain ⟨workspaceId, draws, creator, runInput, houtcome⟩ := hmakes.outcome
  exact harchived houtcome.isOpen

theorem frozen_step
    (hdb : StatusRows db) (hrow : row ∈ db.deployments)
    (harchived : row.archivedAt ≠ none)
    (hstep : deploymentStep settings db call = some next) : Frozen row db next := by
  have hafter : ∃ now ∈ next.deployments, now.id = row.id ∧ now.data = row.data ∧
      now.status = row.status ∧ now.archivedAt ≠ none := by
    rcases DeploymentCall.row_after hdb.ids hstep hrow with
      hkept | ⟨columns, hwrite, hwritten⟩
    · exact ⟨row, hkept, rfl, rfl, rfl, harchived⟩
    · obtain ⟨held, hheld, hid, hchange⟩ := hwrite.change
      obtain rfl := held_eq hdb.ids hheld hrow hid
      refine ⟨_, hwritten, rfl, ?_⟩
      cases hchange with
      | written data status name hopen hdata hcolumns => exact absurd hopen harchived
      | archived now hcolumns =>
          subst hcolumns
          refine ⟨rfl, ?_, by simp [archivedColumns, DeploymentColumns.write]⟩
          have hstatus := (hdb.rows held hrow).archived harchived
          simp [archivedColumns, DeploymentColumns.write, hstatus]
      | ran outcome hmakes hcolumns =>
          exact absurd rfl (makes_not_archived hdb hrow harchived hmakes)
  obtain ⟨now, hnow, hid, hsame⟩ := hafter
  constructor
  · exact List.mem_map.mpr ⟨now, hnow, hid⟩
  · intro other hother hotherId
    obtain rfl := held_eq (DeploymentCall.ids hdb.ids hstep) hnow hother
      (hid.trans hotherId.symm)
    exact hsame
  · rw [commit_runs hstep]
    apply filter_append_of_none
    intro run hrun
    obtain ⟨held, outcome, hmakes, rfl⟩ := DeploymentCall.new_run hrun
    obtain ⟨workspaceId, draws, creator, runInput, houtcome⟩ := hmakes.outcome
    rw [houtcome.deployment]
    exact decide_eq_false (makes_not_archived hdb hrow harchived hmakes)
  · rw [commit_sessions hstep]
    apply filter_append_of_none
    intro session hsession
    obtain ⟨held, outcome, hmakes, hmade⟩ := DeploymentCall.new_session hsession
    obtain ⟨workspaceId, draws, creator, runInput, houtcome⟩ := hmakes.outcome
    rw [houtcome.session session hmade]
    refine decide_eq_false fun hsame => ?_
    exact makes_not_archived hdb hrow harchived hmakes (Json.str.inj hsame)

theorem Frozen.refl
    (hdb : StatusRows db) (hrow : row ∈ db.deployments)
    (harchived : row.archivedAt ≠ none) : Frozen row db db := by
  refine ⟨List.mem_map_of_mem hrow, fun now hnow hid => ?_, rfl, rfl⟩
  obtain rfl := held_eq hdb.ids hnow hrow hid
  exact ⟨rfl, rfl, harchived⟩

theorem Frozen.trans_step
    {start : DeploymentDb} (hfrozen : Frozen row start db) (hdb : StatusRows db)
    (hstep : deploymentStep settings db call = some next) : Frozen row start next := by
  obtain ⟨middle, hmiddle, hid⟩ := List.mem_map.mp hfrozen.stays
  obtain ⟨hdata, hstatus, harchived⟩ := hfrozen.same middle hmiddle hid
  have hnext := frozen_step hdb hmiddle harchived hstep
  refine ⟨hid ▸ hnext.stays, ?_, ?_, ?_⟩
  · intro now hnow hnowId
    obtain ⟨hnowData, hnowStatus, hnowArchived⟩ :=
      hnext.same now hnow (hnowId.trans hid.symm)
    exact ⟨hnowData.trans hdata, hnowStatus.trans hstatus, hnowArchived⟩
  · rw [← hfrozen.runs, ← hid]
    exact hnext.runs
  · rw [← hfrozen.sessions, ← hid]
    exact hnext.sessions

/-! ## Rejected requests -/

/-- The request updates, pauses, continues or runs this deployment. -/
def DeploymentRequest.changes : DeploymentRequest → Option String
  | .update deploymentId _ | .pause deploymentId | .unpause deploymentId
  | .run deploymentId _ => some deploymentId
  | .create _ | .archive _ => none

/-- The requests which would change the archived deployment get an error response and
write nothing. -/
def Rejects (settings : DeploymentSettings) (db : DeploymentDb)
    (row : Deployment) : Prop :=
  ∀ workspaceId surroundings draws (sent : DeploymentRequest),
    sent.changes = some row.id →
      (DeploymentCall.request workspaceId surroundings draws sent).answer settings
          (fun _ => db) =
        { statements := []
          error := some (if row.workspaceId = workspaceId then deploymentArchived
            else ⟨404, "deployment not found"⟩) }

theorem findDeployment_of_mem
    (hids : (db.deployments.map Deployment.id).Nodup) (hrow : row ∈ db.deployments)
    (workspaceId : String) :
    findDeployment db workspaceId row.id =
      if row.workspaceId = workspaceId then .ok row
      else .error ⟨404, "deployment not found"⟩ := by
  unfold findDeployment
  cases hfound : db.deployments.find? fun other =>
      other.id = row.id ∧ other.workspaceId = workspaceId with
  | none =>
      have hnone := List.find?_eq_none.mp hfound row hrow
      rw [if_neg]
      intro hworkspace
      exact hnone (by simp [hworkspace])
  | some found =>
      have hsame := List.find?_some hfound
      simp only [decide_eq_true_eq] at hsame
      obtain rfl := held_eq hids (List.mem_of_find?_eq_some hfound) hrow hsame.1
      rw [if_pos hsame.2]

theorem ensureDeploymentMutable_archived
    (harchived : row.archivedAt ≠ none) :
    ensureDeploymentMutable row = .error deploymentArchived :=
  if_pos harchived

theorem rejects_archived
    (hdb : StatusRows db) (hrow : row ∈ db.deployments)
    (harchived : row.archivedAt ≠ none) :
    Rejects settings db row := by
  intro workspaceId surroundings draws sent hsent
  have hfound := findDeployment_of_mem hdb.ids hrow workspaceId
  have hrefused := ensureDeploymentMutable_archived harchived
  cases sent with
  | create body => cases hsent
  | archive deploymentId => cases hsent
  | update deploymentId body =>
      obtain rfl := Option.some.inj hsent
      simp only [DeploymentCall.answer, DeploymentRequest.answer, updateDeployment,
        DeploymentSettings.context, hfound]
      split
      · rw [show (Except.ok row : Except HTTPException Deployment) = pure row from rfl,
          pure_bind, hrefused]
        rfl
      · rfl
  | pause deploymentId =>
      obtain rfl := Option.some.inj hsent
      simp only [DeploymentCall.answer, DeploymentRequest.answer, pauseDeployment,
        DeploymentSettings.context, hfound]
      split
      · rw [show (Except.ok row : Except HTTPException Deployment) = pure row from rfl,
          pure_bind, hrefused]
        rfl
      · rfl
  | unpause deploymentId =>
      obtain rfl := Option.some.inj hsent
      simp only [DeploymentCall.answer, DeploymentRequest.answer, unpauseDeployment,
        DeploymentSettings.context, hfound]
      split
      · rw [show (Except.ok row : Except HTTPException Deployment) = pure row from rfl,
          pure_bind, hrefused]
        rfl
      · rfl
  | run deploymentId body =>
      obtain rfl := Option.some.inj hsent
      simp only [DeploymentCall.answer, DeploymentRequest.answer, runDeployment,
        DeploymentSettings.context, hfound]
      by_cases hworkspace : row.workspaceId = workspaceId
      · rw [if_pos hworkspace, if_pos hworkspace]
        dsimp only
        unfold runDeploymentResource
        rw [hrefused]
        rfl
      · rw [if_neg hworkspace, if_neg hworkspace]

/-! ## Runs -/

def emptyDeployments : DeploymentDb := { deployments := [], runs := [], sessions := [] }

theorem statusRows_empty : StatusRows emptyDeployments :=
  ⟨List.nodup_nil, fun row hrow => by cases hrow⟩

theorem StatusRows.run
    {start last : DeploymentDb} {calls : List DeploymentCall} (hstart : StatusRows start)
    (hrun : LabelledRuns.run (deploymentStep settings) start calls = some last) :
    StatusRows last :=
  run_invariant (fun _ _ _ hdb hstep => hdb.step hstep) hstart hrun

/-- After the step every pause has a reason, and nothing else has one. -/
def KeepsReasons (settings : DeploymentSettings) (db : DeploymentDb)
    (call : DeploymentCall) : Prop :=
  ∀ next, deploymentStep settings db call = some next → PausesReasoned next

theorem run_reasons_iff
    {start last : DeploymentDb} {calls : List DeploymentCall} (hstart : StatusRows start)
    (hreasons : ReasonRows start)
    (hrun : LabelledRuns.run (deploymentStep settings) start calls = some last) :
    AllSteps (deploymentStep settings) (KeepsReasons settings) start calls ↔
      AllSteps (deploymentStep settings) (GivesReasons settings) start calls := by
  have hsteps : AllSteps (deploymentStep settings)
      (fun db call => ∃ next, deploymentStep settings db call =
        some next) start calls := by
    have hsucceeds : ∀ db call next, True → deploymentStep settings db call = some next →
        True ∧ ∃ next, deploymentStep settings db call = some next :=
      fun _ _ next _ hstep => ⟨trivial, next, hstep⟩
    exact allSteps_of_run hsucceeds trivial hrun
  refine (@allSteps_iff_of_invariant _ _ (deploymentStep settings)
    (fun db => StatusRows db ∧ ReasonRows db) _ (GivesReasons settings)
    (KeepsReasons settings) ?same ?keeps start calls ⟨hstart, hreasons⟩ hsteps).symm
  case same =>
    rintro db call ⟨hdb, hrows⟩ ⟨next, hstep⟩
    rw [← hrows.step_iff hdb hstep, ← (hdb.step hstep).pausesReasoned_iff]
    refine ⟨fun hnext other hother => ?_, fun hkeeps => hkeeps next hstep⟩
    obtain rfl := Option.some.inj (hstep.symm.trans hother)
    exact hnext
  case keeps =>
    rintro db call next ⟨hdb, hrows⟩ hgives hstep
    exact ⟨hdb.step hstep, hrows.step hdb hgives hstep⟩

/-- In every run of calls, each completed before the next, the status of every
deployment is in order, a paused one has no scheduled run, and an archived one stays as
it is and refuses every change.  Every pause keeps a reason exactly if no creation of a
paused deployment gives null as its reason. -/
theorem deployment_statuses
    {settings : DeploymentSettings} {calls : List DeploymentCall} {last : DeploymentDb}
    (hrun : run (deploymentStep settings) emptyDeployments calls = some last) :
    (∀ row ∈ last.deployments, row.archivedAt = none →
      (row.status = .active ∨ row.status = .paused) ∧
        Dict.get row.data "status" = .str row.status.name) ∧
    (AllSteps (deploymentStep settings) (KeepsReasons settings) emptyDeployments calls ↔
      AllSteps (deploymentStep settings) (GivesReasons settings) emptyDeployments
        calls) ∧
    (∀ call next, deploymentStep settings last call = some next →
      SparesPaused last next) ∧
    ∀ row ∈ last.deployments, row.archivedAt ≠ none →
      (∀ more later, run (deploymentStep settings) last more = some later →
        Frozen row last later) ∧
      Rejects settings last row := by
  have hlast := statusRows_empty.run hrun
  have hnone : ReasonRows emptyDeployments := fun row hrow => by cases hrow
  refine ⟨fun row hrow hopen => ?_, run_reasons_iff statusRows_empty hnone hrun,
    fun call next hstep => sparesPaused_step hlast hstep,
    fun row hrow harchived => ⟨fun more later hlater => ?_,
      rejects_archived hlast hrow harchived⟩⟩
  · have hdata := (hlast.rows row hrow).live hopen
    exact ⟨hdata.live, hdata.same⟩
  · have hkeeps : StatusRows later ∧ Frozen row last later := by
      refine @run_invariant _ _ (deploymentStep settings)
        (fun state => StatusRows state ∧ Frozen row last state) ?_ last later more
        ⟨hlast, Frozen.refl hlast hrow harchived⟩ hlater
      rintro middle call next ⟨hmiddle, hfrozen⟩ hstep
      exact ⟨hmiddle.step hstep, hfrozen.trans_step hmiddle hstep⟩
    exact hkeeps.2

end

/-! ## A sample run -/

def sampleMinuteText (minute : ℕ) : String :=
  "1970-01-01T00:" ++ twoDigits minute ++ ":00+00:00"

/-- The minutes of the first hour as Python writes them, other instants as marks. -/
def sampleIsoformat (time : Time) : String :=
  if time % 60000000 = 0 ∧ time / 60000000 < 60 then sampleMinuteText (time / 60000000)
  else String.ofList (List.replicate time 'x')

def sampleFromisoformat (text : String) : Option Time :=
  match (List.range 60).find? fun minute => sampleMinuteText minute = text with
  | some minute => some (minute * 60000000)
  | none => if text.toList.all (· = 'x') then some text.toList.length else none

theorem sampleMinuteText_injective
    {first second : ℕ} (hsame : sampleMinuteText first = sampleMinuteText second) :
    first = second := by
  have htexts := congrArg String.toList hsame
  simp only [sampleMinuteText, String.toList_append, List.append_assoc,
    List.append_cancel_left_eq, List.append_cancel_right_eq] at htexts
  rw [← ofDigitChars_twoDigits first, htexts, ofDigitChars_twoDigits]

theorem find_sampleMinuteText {minute : ℕ} (hminute : minute < 60) :
    (List.range 60).find?
      (fun other => sampleMinuteText other = sampleMinuteText minute) =
      some minute := by
  have hmem := List.mem_range.mpr hminute
  cases hfind : (List.range 60).find? fun other =>
      sampleMinuteText other = sampleMinuteText minute with
  | none => exact absurd (decide_eq_true rfl) (List.find?_eq_none.mp hfind minute hmem)
  | some other =>
      have hfound := List.find?_some hfind
      have hsame := of_decide_eq_true hfound
      rw [sampleMinuteText_injective hsame]

theorem sampleFromisoformat_isoformat (time : Time) :
    sampleFromisoformat (sampleIsoformat time) = some time := by
  unfold sampleIsoformat
  split
  next hminute =>
    unfold sampleFromisoformat
    rw [find_sampleMinuteText hminute.2]
    exact congrArg some (Nat.div_mul_cancel (Nat.dvd_of_mod_eq_zero hminute.1))
  next =>
    have hnone : ((List.range 60).find? fun minute =>
        sampleMinuteText minute = String.ofList (List.replicate time 'x')) = none := by
      apply List.find?_eq_none.mpr
      intro minute _ hsame
      have htext := congrArg (fun text => text.toList.head?) (of_decide_eq_true hsame)
      cases time <;> simp [sampleMinuteText, List.replicate_succ] at htext
    unfold sampleFromisoformat
    rw [hnone]
    simp

theorem sampleIsoformat_ne_empty (time : Time) : sampleIsoformat time ≠ "" := by
  intro hempty
  unfold sampleIsoformat at hempty
  split at hempty
  next => simp [sampleMinuteText] at hempty
  next hother =>
    have htime : time ≠ 0 := by
      rintro rfl
      exact hother ⟨rfl, by norm_num⟩
    have htext := congrArg String.toList hempty
    simp [htime] at htext

def sampleUtc : ZoneInfo where
  wallMinute := fun time => time / 60000000
  instantOf := fun minute => (minute * 60000000).toNat

def sampleCalendar : Calendar where
  toPython := { samplePython with isoformat := sampleIsoformat }
  fromisoformat := sampleFromisoformat
  zoneInfo := fun name => if name = "UTC" then some sampleUtc else none
  fromisoformat_isoformat := sampleFromisoformat_isoformat
  isoformat_ne_empty := sampleIsoformat_ne_empty

def sampleDeploymentSettings : DeploymentSettings where
  calendar := sampleCalendar
  urlPath := fun url => .ok url

def sampleAgentRows : AgentRows where
  agents := [{
    id := "agent_1"
    workspaceId := "wrkspc_default"
    name := "agent"
    description := none
    activeVersion := 1
    metadata := [] }]
  versions := [{ sampleVersion with workspaceId := "wrkspc_default" }]

def sampleSurroundings : Surroundings where
  agents := sampleAgentRows
  environments := [{ sampleEnvironment with workspaceId := "wrkspc_default" }]
  resources := []
  files := []
  copies := fun _ => false

def sampleRunDraws (tag : String) (now : Time) : RunDraws where
  uuidHex := fun draw => tag ++ toString draw
  clock := fun _ => now
  files := fun _ => sampleFileContext

def sampleDeploymentBody (name : String) (more : Dict) : Dict :=
  [("name", .str name), ("agent", .str "agent_1"), ("environment_id", .str "env_1"),
   ("initial_events", .list [.dict [("type", .str "user.message")]]),
   ("schedule",
    .dict [("expression", .str "* * * * *"), ("timezone", .str "UTC")])] ++ more

def sampleDeploymentCall (tag : String) (now : Time) (sent : DeploymentRequest) :
    DeploymentCall :=
  .request "wrkspc_default" sampleSurroundings (sampleRunDraws tag now) sent

def samplePausedCalls : List DeploymentCall :=
  [sampleDeploymentCall "d" 0 (.create (sampleDeploymentBody "nightly" [])),
   sampleDeploymentCall "p" 0 (.pause "deploy_d0")]

def samplePausedDeployments : DeploymentDb :=
  (run (deploymentStep sampleDeploymentSettings) emptyDeployments samplePausedCalls).get
    (by decide +kernel)

theorem sample_deployment_statuses :
    (∀ row ∈ samplePausedDeployments.deployments, row.archivedAt = none →
      (row.status = .active ∨ row.status = .paused) ∧
        Dict.get row.data "status" = .str row.status.name) ∧
    (AllSteps (deploymentStep sampleDeploymentSettings)
        (KeepsReasons sampleDeploymentSettings) emptyDeployments samplePausedCalls ↔
      AllSteps (deploymentStep sampleDeploymentSettings)
        (GivesReasons sampleDeploymentSettings) emptyDeployments samplePausedCalls) ∧
    (∀ call next,
      deploymentStep sampleDeploymentSettings samplePausedDeployments call = some next →
      SparesPaused samplePausedDeployments next) ∧
    ∀ row ∈ samplePausedDeployments.deployments, row.archivedAt ≠ none →
      (∀ more later, run (deploymentStep sampleDeploymentSettings)
        samplePausedDeployments more = some later →
        Frozen row samplePausedDeployments later) ∧
      Rejects sampleDeploymentSettings samplePausedDeployments row :=
  @deployment_statuses sampleDeploymentSettings samplePausedCalls samplePausedDeployments
    (Option.some_get _).symm

/-- The deployment is paused, for a reason. -/
example : samplePausedDeployments.deployments.map (fun row =>
    (row.status, row.data.get "paused_reason" == .null)) = [(.paused, false)] := by
  decide +kernel

def sampleNullReasonCalls : List DeploymentCall :=
  [sampleDeploymentCall "d" 0 (.create (sampleDeploymentBody "nightly"
    [("status", .str "paused"), ("paused_reason", .null)]))]

theorem null_reason_leaves_none :
    ∃ last, run (deploymentStep sampleDeploymentSettings) emptyDeployments
        sampleNullReasonCalls = some last ∧
      ¬ PausesReasoned last := by
  have hfacts : (run (deploymentStep sampleDeploymentSettings) emptyDeployments
      sampleNullReasonCalls).map (fun last => last.deployments.map fun row =>
        (row.archivedAt, row.status, Dict.get row.data "paused_reason")) =
      some [(none, .paused, .null)] := by
    decide +kernel
  obtain ⟨last, hrun, hrows⟩ := Option.map_eq_some_iff.mp hfacts
  refine ⟨last, hrun, fun hreasoned => ?_⟩
  obtain ⟨row, rest, hdeployments, hrow, -⟩ := List.map_eq_cons_iff.mp hrows
  simp only [Prod.mk.injEq] at hrow
  obtain ⟨hopen, hpaused, hnull⟩ := hrow
  have hmem : row ∈ last.deployments := by
    rw [hdeployments]
    exact List.mem_cons_self
  exact (hreasoned row hmem hopen).mpr hpaused hnull

end ManagedAgents
