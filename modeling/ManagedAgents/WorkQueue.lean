import ManagedAgents.Runtime.Turn

/-!
# The work queue

The operations on one `environment_work` row: leasing, acknowledging,
heartbeats, stopping, metadata updates and reclaiming by a poll, and the three
transactions of `execute_work_item` around a turn.  Each computes the row to
write from the row it read.
-/

namespace ManagedAgents

def RUNNABLE_WORK_STATUSES : List WorkStatus := [.queued, .rescheduling]
def LEASED_WORK_STATUSES : List WorkStatus := [.leased, .running]

def WorkStatus.name : WorkStatus → String
  | .queued => "queued"
  | .leased => "leased"
  | .running => "running"
  | .rescheduling => "rescheduling"
  | .completed => "completed"
  | .error => "error"
  | .stopped => "stopped"

structure WorkLeaseError where
  message : String

/-! ## Availability -/

def retryAtDue (work : EnvironmentWork) (now : Time) : Bool :=
  match work.data.retryAt with
  | none => true
  | some retryAt => retryAt ≤ now

def workReadyForExecution (work : EnvironmentWork) (now : Time) : Bool :=
  match work.status with
  | .queued => true
  | .rescheduling => retryAtDue work now
  | _ => false

def leaseExpired (work : EnvironmentWork) (now : Time) : Bool :=
  if work.status ∉ LEASED_WORK_STATUSES then false
  else
    match work.data.lease.bind Lease.expiresAt with
    | none => true
    | some expiresAt => expiresAt ≤ now

def workAvailableForLease (work : EnvironmentWork) (now : Time) : Bool :=
  workReadyForExecution work now || leaseExpired work now

/-! ## Leases -/

/-- An identifier that is present and not empty. -/
def presentId (id : Option String) : Option String :=
  id.filter fun text => text ≠ ""

def requireLeaseOwner (work : EnvironmentWork) (workerId : Option String)
    (action : String) : Except WorkLeaseError Unit :=
  if work.status ∉ LEASED_WORK_STATUSES then
    .error ⟨"Cannot " ++ action ++ " work item while status is " ++
      work.status.name⟩
  else
    match presentId (work.data.lease.bind Lease.workerId), presentId workerId with
    | none, _ => .ok ()
    | some _, none =>
        .error ⟨"worker_id is required to " ++ action ++ " this leased work item"⟩
    | some owner, some worker =>
        if owner ≠ worker then
          .error ⟨"Worker " ++ worker ++ " does not own this work lease"⟩
        else .ok ()

def SECOND : ℕ := 1000000

def leaseWork (work : EnvironmentWork) (workerId : String) (leaseSeconds : ℕ)
    (now : Time) : EnvironmentWork :=
  { work with
    status := .leased
    data :=
      { work.data with
        attempt := work.data.attempt + 1
        lease := some
          { workerId := some workerId
            leasedAt := some now
            expiresAt := some (now + leaseSeconds * SECOND) } } }

def ackWork (work : EnvironmentWork) (workerId : Option String) (now : Time) :
    Except WorkLeaseError EnvironmentWork :=
  match requireLeaseOwner work workerId "ack" with
  | .error error => .error error
  | .ok () =>
      .ok
        { work with
          status := .running
          data :=
            { work.data with
              ackedAt := some now
              ackedBy := (presentId workerId).or work.data.ackedBy } }

def heartbeatWork (work : EnvironmentWork) (workerId : Option String)
    (leaseSeconds : ℕ) (payload : Dict) (now : Time) :
    Except WorkLeaseError EnvironmentWork :=
  match requireLeaseOwner work workerId "heartbeat" with
  | .error error => .error error
  | .ok () =>
      let lease := work.data.lease.getD {}
      .ok
        { work with
          status := .running
          data :=
            { work.data with
              lastHeartbeatAt := some now
              lastHeartbeat := some payload
              lease := some
                { lease with
                  workerId := (presentId workerId).or lease.workerId
                  expiresAt := some (now + leaseSeconds * SECOND) } } }

def stopWork (work : EnvironmentWork) (payload : Dict) (now : Time) :
    EnvironmentWork :=
  { work with
    status := .stopped
    data := { work.data with stop := some payload, stoppedAt := some now } }

/-! ## Requests of the work routes -/

def workerIdForWork (work : EnvironmentWork)
    (workerId anthropicWorkerId : Option String) : Option String :=
  ((presentId workerId).or (presentId anthropicWorkerId)).or
    (presentId (work.data.lease.bind Lease.workerId))

def checkHeartbeatPrecondition (py : Python) (work : EnvironmentWork)
    (expectedLastHeartbeat : Option String) : Except HTTPException Unit :=
  let failed : HTTPException := ⟨412, "Heartbeat precondition failed"⟩
  match expectedLastHeartbeat with
  | none => .ok ()
  | some expected =>
      let lastHeartbeat := (work.data.lastHeartbeatAt.map py.isoformat).getD ""
      if expected = "NO_HEARTBEAT" then
        if lastHeartbeat ≠ "" then .error failed else .ok ()
      else if lastHeartbeat ≠ expected then .error failed
      else .ok ()

def leaseConflict : Except WorkLeaseError α → Except HTTPException α
  | .ok value => .ok value
  | .error error => .error ⟨409, error.message⟩

structure HeartbeatRequest where
  workerId : Option String := none
  anthropicWorkerId : Option String := none
  ttlSeconds : ℕ := 60
  expectedLastHeartbeat : Option String := none
  payload : Dict := []

def heartbeatEnvironmentWork (py : Python) (work : EnvironmentWork)
    (request : HeartbeatRequest) (now : Time) :
    Except HTTPException EnvironmentWork :=
  match checkHeartbeatPrecondition py work request.expectedLastHeartbeat with
  | .error error => .error error
  | .ok () =>
      leaseConflict (heartbeatWork work
        (workerIdForWork work request.workerId request.anthropicWorkerId)
        request.ttlSeconds request.payload now)

def stringMetadata (py : Python) (metadata : Dict) : Dict :=
  (metadata.filter fun field => field.2 ≠ .null).map fun field =>
    (field.1, .str (py.str field.2))

def updateEnvironmentWork (py : Python) (work : EnvironmentWork) (patch : Dict) :
    Except HTTPException EnvironmentWork :=
  match patch with
  | [("metadata", metadata)] =>
      match metadata with
      | .dict fields =>
          match mergeMetadata (.dict (stringMetadata py work.data.metadata))
              (.dict fields) with
          | .error error => .error error
          | .ok merged =>
              .ok { work with data := { work.data with metadata := merged } }
      | _ => .error ⟨422, "work metadata must be an object"⟩
  | _ => .error ⟨422, "work updates only support metadata"⟩

/-- One round of the loop in `_expire_reclaimable_work`. -/
def expireReclaimableWork (work : EnvironmentWork) (reclaimOlderThanMs : ℕ)
    (now : Time) : Option EnvironmentWork :=
  if work.status ∉ LEASED_WORK_STATUSES then none
  else
    let lease := work.data.lease.getD {}
    match work.data.lastHeartbeatAt.or lease.leasedAt with
    | none => none
    | some reference =>
        if now < reference + reclaimOlderThanMs * 1000 then none
        else
          some
            { work with
              data :=
                { work.data with
                  lease := some { lease with expiresAt := some (now - SECOND) }
                  reclaimOlderThanMs := some reclaimOlderThanMs } }

/-! ## Executing a work item -/

/-- The claim of `execute_work_item`; `none` is its silent return. -/
def claimWork (work : EnvironmentWork) (workerId : Option String) (now : Time) :
    Except WorkLeaseError (Option EnvironmentWork) :=
  let started (data : WorkData) : EnvironmentWork :=
    { work with
      status := .running
      data :=
        { data with
          startedAt := some now
          startedBy := (presentId workerId).or data.startedBy } }
  if work.status ∈ LEASED_WORK_STATUSES then
    match requireLeaseOwner work workerId "execute" with
    | .error error => .error error
    | .ok () => .ok (some (started work.data))
  else if workReadyForExecution work now then
    .ok (some (started { work.data with attempt := work.data.attempt + 1 }))
  else .ok none

/-- The transaction after a turn that raised. -/
def finishFailedWork (work : EnvironmentWork) (exc : PyException) (now : Time) :
    EnvironmentWork :=
  { work with
    status := .error
    data :=
      { work.data with
        error := some (exc.className, exc.message)
        finishedAt := some now } }

def StopReason.retryAt : StopReason → Option Time
  | .transientError _ _ _ _ retryAt => some retryAt
  | _ => none

def StopReason.retryAfterSeconds : StopReason → Option ℤ
  | .transientError _ _ _ retryAfter _ => some retryAfter
  | _ => none

/-- The status which the transaction after a returned turn gives its item. -/
def finishedWorkStatus (work : EnvironmentWork) (session : ManagedSession) :
    WorkStatus :=
  if work.status = .stopped then .stopped
  else if session.status = .terminated ∧
      stopReasonType session.stopReason = some "error" then .error
  else if session.status = .rescheduling then .rescheduling
  else .completed

def finishWork (work : EnvironmentWork) (session : ManagedSession)
    (now : Time) : EnvironmentWork :=
  let data :=
    { work.data with
      finishedAt := some now
      sessionStatus := some session.status }
  { work with
    status := finishedWorkStatus work session
    data :=
      if session.status = .rescheduling then
        { data with
          rescheduledAt := some now
          retryAt := session.stopReason.bind StopReason.retryAt
          retryAfterSeconds := session.stopReason.bind StopReason.retryAfterSeconds
          stopReason := session.stopReason }
      else data }

/-! ## Writing a row -/

inductive WorkRequest
  | lease (workerId : String) (leaseSeconds : ℕ)
  | ack (workerId anthropicWorkerId : Option String)
  | heartbeat (request : HeartbeatRequest)
  | stop (payload : Dict)
  | update (patch : Dict)
  | reclaim (olderThanMs : ℕ)

/-- The row which a request writes, if it writes one. -/
def WorkRequest.handle (py : Python) (now : Time) (work : EnvironmentWork) :
    WorkRequest → Option EnvironmentWork
  | .lease workerId leaseSeconds =>
      if workAvailableForLease work now then
        some (leaseWork work workerId leaseSeconds now)
      else none
  | .ack workerId anthropicWorkerId =>
      (ackWork work (workerIdForWork work workerId anthropicWorkerId) now).toOption
  | .heartbeat request => (heartbeatEnvironmentWork py work request now).toOption
  | .stop payload => some (stopWork work payload now)
  | .update patch => (updateEnvironmentWork py work patch).toOption
  | .reclaim olderThanMs => expireReclaimableWork work olderThanMs now

/-- The `UPDATE` of a work row: `status` and `data`, where they changed. -/
def flushWork (read written current : EnvironmentWork) : EnvironmentWork :=
  { current with
    status := flushColumn read.status written.status current.status
    data := flushColumn read.data written.data current.data }

def Db.workById (db : Db) (workId : String) : Option EnvironmentWork :=
  db.work.find? fun work => work.id = workId

def Db.writeWork (db : Db) (read written : EnvironmentWork) : Db :=
  { db with
    work := db.work.map fun current =>
      if current.id = read.id then flushWork read written current else current }

end ManagedAgents
