import ManagedAgents.WorkRows

/-!
# Who may acknowledge and renew a lease

The routes take the caller's identity from a query parameter or a header, and
from the lease itself when the caller gives none.  A request without identity
therefore counts as the owner's, as clients that cannot send one rely on; a
request that names another worker is refused and writes nothing.
-/

namespace ManagedAgents

open LabelledRuns

/-! ## Requests of a lease owner -/

inductive OwnerRequest
  | ack (workerId anthropicWorkerId : Option String)
  | heartbeat (request : HeartbeatRequest)

/-- `ack_environment_work`. -/
def ackEnvironmentWork (work : EnvironmentWork)
    (workerId anthropicWorkerId : Option String) (now : Time) :
    Except HTTPException EnvironmentWork :=
  leaseConflict (ackWork work (workerIdForWork work workerId anthropicWorkerId) now)

def OwnerRequest.answer (py : Python) (work : EnvironmentWork) (now : Time) :
    OwnerRequest → Except HTTPException EnvironmentWork
  | .ack workerId anthropicWorkerId =>
      ackEnvironmentWork work workerId anthropicWorkerId now
  | .heartbeat request => heartbeatEnvironmentWork py work request now

def OwnerRequest.request : OwnerRequest → WorkRequest
  | .ack workerId anthropicWorkerId => .ack workerId anthropicWorkerId
  | .heartbeat request => .heartbeat request

/-- The identity which the caller gives. -/
def OwnerRequest.identity : OwnerRequest → Option String
  | .ack workerId anthropicWorkerId =>
      (presentId workerId).or (presentId anthropicWorkerId)
  | .heartbeat request =>
      (presentId request.workerId).or (presentId request.anthropicWorkerId)

/-- What is checked before the owner. -/
def OwnerRequest.precondition (py : Python) (work : EnvironmentWork) :
    OwnerRequest → Except HTTPException Unit
  | .ack _ _ => .ok ()
  | .heartbeat request =>
      checkHeartbeatPrecondition py work request.expectedLastHeartbeat

/-- The caller names a worker that does not own the lease. -/
def OwnerRequest.NamesOther (request : OwnerRequest) (owner : String) : Prop :=
  ∃ worker, request.identity = some worker ∧ worker ≠ owner

section

variable {py : Python} {now : Time} {work written : EnvironmentWork}

theorem OwnerRequest.handle_eq (request : OwnerRequest) :
    request.request.handle py now work = (request.answer py work now).toOption := by
  cases request with
  | ack workerId anthropicWorkerId =>
      simp only [OwnerRequest.request, OwnerRequest.answer, WorkRequest.handle,
        ackEnvironmentWork]
      cases ackWork work (workerIdForWork work workerId anthropicWorkerId) now <;> rfl
  | heartbeat request => rfl

theorem presentId_of_eq_some {id : Option String} {text : String}
    (hpresent : presentId id = some text) : presentId (some text) = some text := by
  unfold presentId at hpresent ⊢
  obtain ⟨-, hne⟩ := Option.filter_eq_some_iff.mp hpresent
  simp [Option.filter, hne]

theorem presentId_identity {request : OwnerRequest} {worker : String}
    (hidentity : request.identity = some worker) :
    presentId (some worker) = some worker := by
  cases request with
  | ack workerId anthropicWorkerId =>
      rcases Option.or_eq_some_iff.mp hidentity with hquery | ⟨-, hheader⟩
      · exact presentId_of_eq_some hquery
      · exact presentId_of_eq_some hheader
  | heartbeat request =>
      rcases Option.or_eq_some_iff.mp hidentity with hquery | ⟨-, hheader⟩
      · exact presentId_of_eq_some hquery
      · exact presentId_of_eq_some hheader

theorem workerIdForWork_eq
    {workerId anthropicWorkerId : Option String} {worker : String}
    (hidentity : (presentId workerId).or (presentId anthropicWorkerId) = some worker) :
    workerIdForWork work workerId anthropicWorkerId = some worker := by
  unfold workerIdForWork
  rw [hidentity]
  rfl

/-- A named worker which is not the owner fails the check of the lease. -/
theorem requireLeaseOwner_other
    {owner worker action : String} (howner : work.owner = some owner)
    (hpresent : presentId (some worker) = some worker) (hne : worker ≠ owner) :
    ∃ error, requireLeaseOwner work (some worker) action = .error error := by
  cases hpasses : requireLeaseOwner work (some worker) action with
  | error error => exact ⟨error, rfl⟩
  | ok _ =>
      have hsame := requireLeaseOwner_owner hpasses howner
      rw [hpresent] at hsame
      exact absurd (Option.some.inj hsame) hne

theorem checkHeartbeatPrecondition_error
    {expected : Option String} {error : HTTPException}
    (hfailed : checkHeartbeatPrecondition py work expected = .error error) :
    error.statusCode = 412 := by
  unfold checkHeartbeatPrecondition at hfailed
  simp only at hfailed
  repeat' split at hfailed
  all_goals cases hfailed
  all_goals rfl

/-- A request that names another worker is answered 409, or 412 by the check
before it. -/
theorem OwnerRequest.NamesOther.refused
    {request : OwnerRequest} {owner : String} (hother : request.NamesOther owner)
    (howner : work.owner = some owner) :
    (request.precondition py work = .ok () →
        ∃ detail, request.answer py work now = .error ⟨409, detail⟩) ∧
      ∀ error, request.precondition py work = .error error →
        error.statusCode = 412 ∧ request.answer py work now = .error error := by
  obtain ⟨worker, hidentity, hne⟩ := hother
  have hpresent := presentId_identity hidentity
  cases request with
  | ack workerId anthropicWorkerId =>
      refine ⟨fun _ => ?_, fun error hfailed => nomatch hfailed⟩
      obtain ⟨error, herror⟩ := @requireLeaseOwner_other _ owner worker "ack" howner
        hpresent hne
      refine ⟨error.message, ?_⟩
      simp only [OwnerRequest.answer, ackEnvironmentWork, workerIdForWork_eq hidentity,
        ackWork, herror, leaseConflict]
  | heartbeat request =>
      constructor
      · intro hprecondition
        obtain ⟨error, herror⟩ := @requireLeaseOwner_other _ owner worker "heartbeat"
          howner hpresent hne
        refine ⟨error.message, ?_⟩
        have hchecked : checkHeartbeatPrecondition py work
            request.expectedLastHeartbeat = .ok () := hprecondition
        simp only [OwnerRequest.answer, heartbeatEnvironmentWork, hchecked,
          workerIdForWork_eq hidentity, heartbeatWork, herror, leaseConflict]
      · intro error hfailed
        have hchecked : checkHeartbeatPrecondition py work
            request.expectedLastHeartbeat = .error error := hfailed
        refine ⟨checkHeartbeatPrecondition_error hchecked, ?_⟩
        simp only [OwnerRequest.answer, heartbeatEnvironmentWork, hchecked]

/-- An accepted request names no worker or the owner, and keeps the owner. -/
theorem OwnerRequest.accepted
    {request : OwnerRequest} {owner : String} (howner : work.owner = some owner)
    (hok : request.answer py work now = .ok written) :
    (request.identity = none ∨ request.identity = some owner) ∧
      work.status ∈ LEASED_WORK_STATUSES ∧ written.owner = some owner := by
  have hhandle : request.request.handle py now work = some written := by
    rw [request.handle_eq, hok]
    rfl
  constructor
  · by_contra hneither
    obtain ⟨hnamed, hne⟩ := not_or.mp hneither
    obtain ⟨worker, hworker⟩ := Option.ne_none_iff_exists'.mp hnamed
    have hother : request.NamesOther owner := by
      refine ⟨worker, hworker, ?_⟩
      rintro rfl
      exact hne hworker
    obtain ⟨hconflict, hfailed⟩ := @OwnerRequest.NamesOther.refused py now _ _ _ hother
      howner
    cases hprecondition : request.precondition py work with
    | ok _ =>
        obtain ⟨detail, herror⟩ := hconflict hprecondition
        rw [hok] at herror
        cases herror
    | error error =>
        have herror := (hfailed error hprecondition).2
        rw [hok] at herror
        cases herror
  · cases request with
    | ack workerId anthropicWorkerId =>
        cases WorkRequest.handle_routeWrite hhandle with
        | owned hleased hstatus hkeeps => exact ⟨hleased, hkeeps owner howner⟩
    | heartbeat request =>
        cases WorkRequest.handle_routeWrite hhandle with
        | owned hleased hstatus hkeeps => exact ⟨hleased, hkeeps owner howner⟩

end

/-! ## Requests to the system -/

/-- A request which reads the current state of the item. -/
def OwnerRequest.label (workId : String) (executor : Option ProcessId)
    (call : OwnerRequest × Time) : Label :=
  .work workId call.1.request executor 0 call.2

theorem OwnerRequest.NamesOther.label_unchanged
    {py : Python} {world : World} {workId owner : String} {work : EnvironmentWork}
    {executor : Option ProcessId} {call : OwnerRequest × Time}
    (hother : call.1.NamesOther owner) (hwork : world.db.workById workId = some work)
    (howner : work.owner = some owner) :
    step py world (OwnerRequest.label workId executor call) = some world := by
  have hsnapshot : world.snapshot 1 0 = some world.db := by
    simp [World.snapshot, World.history, World.db]
  have hrefused : call.1.request.handle py call.2 work = none := by
    obtain ⟨hconflict, hfailed⟩ := @OwnerRequest.NamesOther.refused py call.2 _ _ _
      hother howner
    rw [OwnerRequest.handle_eq]
    cases hprecondition : call.1.precondition py work with
    | ok _ =>
        obtain ⟨detail, herror⟩ := hconflict hprecondition
        rw [herror]
        rfl
    | error error =>
        rw [(hfailed error hprecondition).2]
        rfl
  unfold OwnerRequest.label
  simp only [step, workStep, hsnapshot, hwork, hrefused]

theorem OwnerRequest.NamesOther.labels_unchanged
    {py : Python} {world : World} {workId owner : String} {work : EnvironmentWork}
    {executor : Option ProcessId} {calls : List (OwnerRequest × Time)}
    (hother : ∀ call ∈ calls, call.1.NamesOther owner)
    (hwork : world.db.workById workId = some work) (howner : work.owner = some owner) :
    run (step py) world (calls.map (OwnerRequest.label workId executor)) =
      some world := by
  induction calls with
  | nil => rfl
  | cons call rest ih =>
      rw [List.map_cons]
      apply run_cons_eq_some.mpr
      refine ⟨world, ?_, ?_⟩
      · exact OwnerRequest.NamesOther.label_unchanged
          (hother call List.mem_cons_self) hwork howner
      · exact ih fun later hlater => hother later (List.mem_cons_of_mem _ hlater)

/-- Under a lease, a request is accepted only from a caller that names the
owner or nobody, and leaves the owner; one that names another worker is
answered 409 (412 when its heartbeat precondition fails first), and any number
of such requests leaves the system as it is. -/
theorem named_strangers_refused
    (py : Python) (work : EnvironmentWork) (owner : String)
    (howner : work.owner = some owner) :
    (∀ request now written, OwnerRequest.answer py work now request = .ok written →
        (request.identity = none ∨ request.identity = some owner) ∧
          work.status ∈ LEASED_WORK_STATUSES ∧ written.owner = some owner) ∧
      (∀ request now, OwnerRequest.NamesOther request owner →
        (request.precondition py work = .ok () →
            ∃ detail, request.answer py work now = .error ⟨409, detail⟩) ∧
          ∀ error, request.precondition py work = .error error →
            error.statusCode = 412 ∧ request.answer py work now = .error error) ∧
      ∀ (world : World) workId executor (calls : List (OwnerRequest × Time)),
        world.db.workById workId = some work →
        (∀ call ∈ calls, call.1.NamesOther owner) →
        run (step py) world (calls.map (OwnerRequest.label workId executor)) =
          some world := by
  refine ⟨?_, ?_, ?_⟩
  · intro request now written hok
    exact OwnerRequest.accepted howner hok
  · intro request now hother
    exact hother.refused howner
  · intro world workId executor calls hwork hother
    exact OwnerRequest.NamesOther.labels_unchanged hother hwork howner

/-! ## A lease of one worker -/

def leasedItem : EnvironmentWork where
  id := "work_1"
  parentId := "env_1"
  name := "session:sess_1"
  status := .leased
  data :=
    { sessionId := "sess_1"
      trigger := "session.events"
      queuedAt := 0
      lease := some
        { workerId := some "worker-2", leasedAt := some 0, expiresAt := some SECOND } }

theorem sample_stranger_refused :
    OwnerRequest.answer samplePython leasedItem 5 (.ack (some "worker-1") none) =
        .error ⟨409, "Worker worker-1 does not own this work lease"⟩ ∧
      ∃ detail, OwnerRequest.answer samplePython leasedItem 5
        (.ack (some "worker-1") none) = .error ⟨409, detail⟩ := by
  have hall := named_strangers_refused samplePython leasedItem "worker-2" (by decide)
  have hother : OwnerRequest.NamesOther (.ack (some "worker-1") none) "worker-2" :=
    ⟨"worker-1", by decide, by decide⟩
  exact ⟨rfl, (hall.2.1 _ 5 hother).1 rfl⟩

/-- A caller without identity is taken for the owner, and a failed heartbeat
precondition is reported before the owner is checked. -/
theorem unnamed_caller_acknowledges :
    (OwnerRequest.identity (.ack none none) = none ∧
        ∃ written, OwnerRequest.answer samplePython leasedItem 5 (.ack none none) =
          .ok written ∧ written.status = .running) ∧
      OwnerRequest.answer samplePython leasedItem 5
          (.heartbeat
            { workerId := some "worker-1", expectedLastHeartbeat := some "stale" }) =
        .error ⟨412, "Heartbeat precondition failed"⟩ := by
  exact ⟨⟨rfl, _, rfl, rfl⟩, rfl⟩

end ManagedAgents
