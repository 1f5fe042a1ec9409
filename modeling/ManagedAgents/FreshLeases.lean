import ManagedAgents.WorkPolls
import ManagedAgents.WorkRows

/-!
# Reclaiming leases

A poll expires a lease by the age of the item's last heartbeat, or by the age
of the grant when the item has none.  The heartbeat stays on the row when the
item is leased again.  A grant or a heartbeat younger than the limit therefore
protects the lease unless an older heartbeat, of an earlier lease, is the last
one.
-/

namespace ManagedAgents

open LabelledRuns

/-! ## The history of an item -/

/-- What is done to an item: a request of the work routes, a claim, and the two
ends of an execution. -/
inductive WorkOperation
  | route (request : WorkRequest)
  | claim (workerId : Option String)
  | fail (exc : PyException)
  | finish (session : ManagedSession)

/-- The row which the operation writes, if it writes one. -/
def WorkOperation.apply (py : Python) (now : Time) (work : EnvironmentWork) :
    WorkOperation → Option EnvironmentWork
  | .route request => request.handle py now work
  | .claim workerId =>
      match claimWork work workerId now with
      | .ok written => written
      | .error _ => none
  | .fail exc => some (finishFailedWork work exc now)
  | .finish session => some (finishWork work session now)

inductive LeaseEvent
  | granted (time : Time)
  | renewed (time : Time)
deriving DecidableEq

def LeaseEvent.time : LeaseEvent → Time
  | .granted time | .renewed time => time

/-- An item with the grants and renewals of its leases, newest first. -/
structure LeasedItem where
  work : EnvironmentWork
  record : List LeaseEvent

def WorkOperation.leaseEvent (now : Time) : WorkOperation → List LeaseEvent
  | .route (.lease _ _) => [.granted now]
  | .route (.heartbeat _) => [.renewed now]
  | _ => []

/-- A refused operation changes nothing. -/
def itemStep (py : Python) (item : LeasedItem) (operation : WorkOperation × Time) :
    Option LeasedItem :=
  match operation.1.apply py operation.2 item.work with
  | none => some item
  | some written =>
      some
        { work := written
          record := operation.1.leaseEvent operation.2 ++ item.record }

/-- The item as `enqueue_session_run` creates it. -/
def LeasedItem.enqueued (work : EnvironmentWork) : Prop :=
  work.status = .queued ∧ work.data.lease = none ∧ work.data.lastHeartbeatAt = none

/-! ## What the row keeps of its history -/

def lastHeartbeat (record : List LeaseEvent) : Option Time :=
  record.findSome? fun event =>
    match event with
    | .renewed time => some time
    | .granted _ => none

def lastGrant (record : List LeaseEvent) : Option Time :=
  record.findSome? fun event =>
    match event with
    | .granted time => some time
    | .renewed _ => none

def EnvironmentWork.leasedAt (work : EnvironmentWork) : Option Time :=
  work.data.lease.bind Lease.leasedAt

structure LeasedItem.Recorded (item : LeasedItem) : Prop where
  heartbeat : item.work.data.lastHeartbeatAt = lastHeartbeat item.record
  grant : item.work.leasedAt = lastGrant item.record

/-- The columns that tell the age of a lease. -/
def EnvironmentWork.leaseTimes (work : EnvironmentWork) : Option Time × Option Time :=
  (work.data.lastHeartbeatAt, work.leasedAt)

section

variable {py : Python} {now : Time} {work written : EnvironmentWork}

theorem heartbeatWork_leaseTimes
    {workerId : Option String} {leaseSeconds : ℕ} {payload : Dict}
    (hok : heartbeatWork work workerId leaseSeconds payload now = .ok written) :
    written.leaseTimes = (some now, work.leasedAt) := by
  unfold heartbeatWork at hok
  split at hok
  · cases hok
  cases hok
  unfold EnvironmentWork.leaseTimes EnvironmentWork.leasedAt
  cases work.data.lease <;> rfl

theorem expireReclaimableWork_leaseTimes
    {olderThanMs : ℕ}
    (hexpired : expireReclaimableWork work olderThanMs now = some written) :
    written.leaseTimes = work.leaseTimes := by
  unfold expireReclaimableWork at hexpired
  simp only at hexpired
  repeat' split at hexpired
  all_goals cases hexpired
  unfold EnvironmentWork.leaseTimes EnvironmentWork.leasedAt
  cases work.data.lease <;> rfl

theorem claimWork_leaseTimes
    {workerId : Option String}
    (hclaim : claimWork work workerId now = .ok (some written)) :
    written.leaseTimes = work.leaseTimes := by
  unfold claimWork at hclaim
  simp only at hclaim
  repeat' split at hclaim
  all_goals cases hclaim
  all_goals rfl

/-- Only a lease and a heartbeat move the times, each its own. -/
theorem WorkRequest.handle_leaseTimes
    {request : WorkRequest} (hhandle : request.handle py now work = some written) :
    written.leaseTimes =
      match request with
      | .lease _ _ => (work.data.lastHeartbeatAt, some now)
      | .heartbeat _ => (some now, work.leasedAt)
      | _ => work.leaseTimes := by
  cases request with
  | lease workerId leaseSeconds =>
      simp only [WorkRequest.handle] at hhandle
      split at hhandle
      next =>
        cases hhandle
        rfl
      next => cases hhandle
  | ack workerId anthropicWorkerId =>
      have hok : ackWork work _ now = .ok written := Except.toOption_eq_some.mp hhandle
      unfold ackWork at hok
      split at hok
      · cases hok
      · cases hok
        rfl
  | heartbeat request =>
      have hok := heartbeatEnvironmentWork_ok (Except.toOption_eq_some.mp hhandle)
      exact heartbeatWork_leaseTimes hok
  | stop payload =>
      cases hhandle
      rfl
  | update patch =>
      have hok : updateEnvironmentWork py work patch = .ok written :=
        Except.toOption_eq_some.mp hhandle
      unfold updateEnvironmentWork at hok
      repeat' split at hok
      all_goals cases hok
      rfl
  | reclaim olderThanMs => exact expireReclaimableWork_leaseTimes hhandle

end

theorem LeasedItem.Recorded.step
    {py : Python} {item next : LeasedItem} {operation : WorkOperation × Time}
    (hrecorded : item.Recorded) (hstep : itemStep py item operation = some next) :
    next.Recorded := by
  have hkept : ∀ {work : EnvironmentWork}, work.leaseTimes = item.work.leaseTimes →
      LeasedItem.Recorded { work := work, record := item.record } := by
    intro work hsame
    exact ⟨(congrArg Prod.fst hsame).trans hrecorded.heartbeat,
      (congrArg Prod.snd hsame).trans hrecorded.grant⟩
  unfold itemStep at hstep
  split at hstep
  · cases hstep
    exact hrecorded
  next written happly =>
    cases hstep
    obtain ⟨operation, now⟩ := operation
    cases operation with
    | route request =>
        have hhandle : request.handle py now item.work = some written := happly
        have htimes := WorkRequest.handle_leaseTimes hhandle
        cases request with
        | lease workerId leaseSeconds =>
            exact ⟨(congrArg Prod.fst htimes).trans hrecorded.heartbeat,
              congrArg Prod.snd htimes⟩
        | heartbeat request =>
            exact ⟨congrArg Prod.fst htimes,
              (congrArg Prod.snd htimes).trans hrecorded.grant⟩
        | ack workerId anthropicWorkerId => exact hkept htimes
        | stop payload => exact hkept htimes
        | update patch => exact hkept htimes
        | reclaim olderThanMs => exact hkept htimes
    | claim workerId =>
        simp only [WorkOperation.apply] at happly
        split at happly
        next hclaim =>
          subst happly
          exact hkept (claimWork_leaseTimes hclaim)
        next => cases happly
    | fail exc =>
        cases happly
        exact hkept rfl
    | finish session =>
        cases happly
        refine hkept ?_
        unfold finishWork
        simp only
        split <;> rfl

theorem LeasedItem.Recorded.run
    {py : Python} {start : EnvironmentWork} {item : LeasedItem}
    {operations : List (WorkOperation × Time)} (hstart : LeasedItem.enqueued start)
    (hrun : run (itemStep py) { work := start, record := [] } operations = some item) :
    item.Recorded := by
  apply run_invariant (fun _ _ _ hrecorded hstep =>
    LeasedItem.Recorded.step hrecorded hstep) _ hrun
  obtain ⟨-, hlease, hheartbeat⟩ := hstart
  refine ⟨hheartbeat, ?_⟩
  simp [EnvironmentWork.leasedAt, hlease, lastGrant]

/-! ## Polls -/

/-- The grant of the current lease and its renewals. -/
def currentLease : List LeaseEvent → List LeaseEvent
  | [] => []
  | .granted time :: _ => [.granted time]
  | .renewed time :: rest => .renewed time :: currentLease rest

/-- The current lease was granted or renewed less than the limit ago. -/
def FreshLease (record : List LeaseEvent) (olderThanMs : ℕ) (now : Time) : Prop :=
  ∃ event ∈ currentLease record, now < event.time + olderThanMs * 1000

/-- The last heartbeat of the item, of whichever lease, is that young too. -/
def HeartbeatRecent (record : List LeaseEvent) (olderThanMs : ℕ) (now : Time) : Prop :=
  ∀ heartbeat ∈ lastHeartbeat record, now < heartbeat + olderThanMs * 1000

/-- The round of the poll does not expire the lease, nor hand an item with an
unexpired lease to the polling worker. -/
def KeepsLease (poll : PollRequest) (rows : List WorkRow) (row : WorkRow)
    (reclaimedAt leasedAt : Time) : Prop :=
  (∀ written ∈ poll.expired rows reclaimedAt, written.id ≠ row.id) ∧
    ((∃ expiresAt ∈ row.data.lease.bind Lease.expiresAt, leasedAt < expiresAt) →
      ∀ leased after, poll.round rows reclaimedAt leasedAt = some (leased, after) →
        leased.id ≠ row.id)

theorem lastGrant_of_no_heartbeat
    {record : List LeaseEvent} {event : LeaseEvent} (hnone : lastHeartbeat record = none)
    (hevent : event ∈ currentLease record) : lastGrant record = some event.time := by
  cases record with
  | nil => cases hevent
  | cons newest older =>
      cases newest with
      | granted time =>
          rw [List.mem_singleton.mp hevent]
          rfl
      | renewed time => cases hnone

theorem expireReclaimableWork_eq_none_iff
    {work : EnvironmentWork} {olderThanMs : ℕ} {now : Time}
    (hleased : work.status ∈ LEASED_WORK_STATUSES) :
    expireReclaimableWork work olderThanMs now = none ↔
      ∀ reference ∈ work.data.lastHeartbeatAt.or work.leasedAt,
        now < reference + olderThanMs * 1000 := by
  have hleasedAt : (work.data.lease.getD {}).leasedAt = work.leasedAt := by
    unfold EnvironmentWork.leasedAt
    cases work.data.lease <;> rfl
  unfold expireReclaimableWork
  simp only [hleased, not_true_eq_false, if_false, hleasedAt]
  cases work.data.lastHeartbeatAt.or work.leasedAt with
  | none => simp
  | some reference => simp

/-- On a fresh lease, the poll's reference is recent exactly when the last
heartbeat is. -/
theorem LeasedItem.Recorded.expires_iff
    {item : LeasedItem} {olderThanMs : ℕ} {now : Time} (hrecorded : item.Recorded)
    (hleased : item.work.status ∈ LEASED_WORK_STATUSES)
    (hfresh : FreshLease item.record olderThanMs now) :
    expireReclaimableWork item.work olderThanMs now = none ↔
      HeartbeatRecent item.record olderThanMs now := by
  rw [expireReclaimableWork_eq_none_iff hleased, hrecorded.heartbeat, hrecorded.grant]
  unfold HeartbeatRecent
  cases hheartbeat : lastHeartbeat item.record with
  | some heartbeat => simp
  | none =>
      obtain ⟨event, hevent, hrecent⟩ := hfresh
      rw [lastGrant_of_no_heartbeat hheartbeat hevent]
      simp [hrecent]

theorem Table.expired_iff
    {table : WorkTable} {row : WorkRow} {poll : PollRequest} {olderThanMs : ℕ}
    {now : Time} (hrow : row ∈ table.rows)
    (hpoll : poll.reclaimOlderThanMs = some olderThanMs) :
    (∀ written ∈ poll.expired table.rows now, written.id ≠ row.id) ↔
      (row ∈ listResources table.rows
          (workQuery poll.workspaceId (some poll.environmentId)) WORK_PAGE_LIMIT →
        expireReclaimableWork (WorkRow.work row) olderThanMs now = none) := by
  have hexpired : poll.expired table.rows now =
      expiredWork table.rows poll.workspaceId poll.environmentId olderThanMs now := by
    simp only [PollRequest.expired, hpoll]
  rw [hexpired]
  unfold expiredWork
  simp only [List.mem_filterMap, Option.map_eq_some_iff]
  constructor
  · intro hkept hlisted
    by_contra hsome
    obtain ⟨written, hwritten⟩ := Option.ne_none_iff_exists'.mp hsome
    exact hkept _ ⟨row, hlisted, written, hwritten, rfl⟩ rfl
  · rintro hkept _ ⟨other, hlisted, written, hwritten, rfl⟩ hid
    have hother : other ∈ table.rows :=
      List.mem_of_mem_filter (NewestPage.mem_of_mem_page hlisted)
    have hsame : other = row := List.inj_on_of_nodup_map table.ids hother hrow hid
    rw [hsame] at hlisted hwritten
    rw [hkept hlisted] at hwritten
    cases hwritten

/-- An item with an unexpired lease is not available. -/
theorem WorkRow.not_available
    {row : WorkRow} {expiresAt now : Time} (hleased : row.status ∈ LEASED_WORK_STATUSES)
    (hexpiresAt : row.data.lease.bind Lease.expiresAt = some expiresAt)
    (hlater : now < expiresAt) : WorkRow.available now row = false := by
  have hexpired : leaseExpired (WorkRow.work row) now = false := by
    simp [leaseExpired, WorkRow.work, hleased, hexpiresAt, hlater]
  have hready : workReadyForExecution (WorkRow.work row) now = false := by
    unfold LEASED_WORK_STATUSES at hleased
    rcases List.mem_cons.mp hleased with hstatus | hleased
    · simp [workReadyForExecution, WorkRow.work, hstatus]
    · have hstatus := List.mem_singleton.mp hleased
      simp [workReadyForExecution, WorkRow.work, hstatus]
  simp [WorkRow.available, workAvailableForLease, hready, hexpired]

theorem leaseOldest_available
    {rows after : List WorkRow} {leased : WorkRow} {query : ResourceQuery}
    {workerId : String} {leaseSeconds : ℕ} {now : Time}
    (hleased : leaseOldest rows query workerId leaseSeconds now = some (leased, after)) :
    ∃ row ∈ rows, row.id = leased.id ∧ WorkRow.available now row = true := by
  unfold leaseOldest at hleased
  obtain ⟨row, hfound, hwritten⟩ := Option.map_eq_some_iff.mp hleased
  have hlisted := List.mem_reverse.mp (List.mem_of_find?_eq_some hfound)
  refine ⟨row, List.mem_of_mem_filter (NewestPage.mem_of_mem_page hlisted), ?_,
    List.find?_some hfound⟩
  rw [← (Prod.mk.inj hwritten).1]
  rfl

/-- A poll keeps a fresh lease exactly when the item is not on its page or the
last heartbeat of the item is recent as well. -/
theorem fresh_lease_kept_iff
    {py : Python} {table : WorkTable} {row : WorkRow} {start : EnvironmentWork}
    {record : List LeaseEvent} {operations : List (WorkOperation × Time)}
    {poll : PollRequest} {olderThanMs : ℕ} {reclaimedAt leasedAt : Time}
    (hrow : row ∈ table.rows) (hleased : row.status ∈ LEASED_WORK_STATUSES)
    (hstart : LeasedItem.enqueued start)
    (hhistory : run (itemStep py) { work := start, record := [] } operations =
      some { work := WorkRow.work row, record := record })
    (hpoll : poll.reclaimOlderThanMs = some olderThanMs)
    (hfresh : FreshLease record olderThanMs reclaimedAt) :
    KeepsLease poll table.rows row reclaimedAt leasedAt ↔
      (row ∈ listResources table.rows
          (workQuery poll.workspaceId (some poll.environmentId)) WORK_PAGE_LIMIT →
        HeartbeatRecent record olderThanMs reclaimedAt) := by
  have hrecorded := LeasedItem.Recorded.run hstart hhistory
  rw [← hrecorded.expires_iff hleased hfresh, ← Table.expired_iff hrow hpoll]
  apply and_iff_left_of_imp
  rintro hkept ⟨expiresAt, hexpiresAt, hlater⟩ leased after hround hid
  obtain ⟨other, hother, hsame, havailable⟩ := leaseOldest_available hround
  have hids : ((poll.reclaimed table.rows reclaimedAt).map ManagedResource.id).Nodup := by
    unfold PollRequest.reclaimed
    rw [foldl_replaceRow_ids]
    exact table.ids
  have hstays : row ∈ poll.reclaimed table.rows reclaimedAt :=
    mem_foldl_replaceRow hrow hkept
  obtain rfl := List.inj_on_of_nodup_map hids hother hstays (hsame.trans hid)
  rw [WorkRow.not_available hleased hexpiresAt hlater] at havailable
  cases havailable

/-! ## A lease granted anew -/

def pollableWork : EnvironmentWork where
  id := "work_1"
  parentId := "env_1"
  name := "session:sess_1"
  status := .queued
  data := { sessionId := "sess_1", trigger := "session.events", queuedAt := 0 }

def workRow (work : EnvironmentWork) : WorkRow where
  id := work.id
  workspaceId := "wrkspc_default"
  resourceType := .environmentWork
  parentId := some work.parentId
  name := some work.name
  status := work.status
  data := work.data
  createdAt := 0

def tableOf (work : EnvironmentWork) : WorkTable where
  rows := [workRow work]
  ids := List.nodup_singleton _

def reclaimingPoll : PollRequest where
  workspaceId := "wrkspc_default"
  environmentId := "env_1"
  workerId := "worker-3"
  leaseSeconds := 60
  reclaimOlderThanMs := some 5000

/-- A lease is granted and renewed, and runs out. -/
def firstLease : List (WorkOperation × Time) :=
  [(.route (.lease "worker-1" 60), 0),
   (.route (.heartbeat { workerId := some "worker-1" }), SECOND)]

def itemAfter (operations : List (WorkOperation × Time)) : LeasedItem :=
  (run (itemStep samplePython) { work := pollableWork, record := [] } operations).getD
    { work := pollableWork, record := [] }

theorem sample_fresh_lease_kept :
    KeepsLease reclaimingPoll (tableOf (itemAfter firstLease).work).rows
      (workRow (itemAfter firstLease).work) (2 * SECOND) (2 * SECOND) := by
  have hrow : workRow (itemAfter firstLease).work ∈
      (tableOf (itemAfter firstLease).work).rows := List.mem_cons_self
  have hhistory : run (itemStep samplePython) { work := pollableWork, record := [] }
      firstLease = some
        { work := WorkRow.work (workRow (itemAfter firstLease).work)
          record := [.renewed SECOND, .granted 0] } := rfl
  have hfresh : FreshLease [.renewed SECOND, .granted 0] 5000 (2 * SECOND) := by
    unfold FreshLease
    decide
  apply (fresh_lease_kept_iff hrow (by decide) ⟨rfl, rfl, rfl⟩ hhistory rfl hfresh).mpr
  intro _ heartbeat hheartbeat
  cases hheartbeat
  decide

/-- The lease of the second worker is one second old, and the heartbeat of the
first worker takes it away. -/
theorem earlier_heartbeat_reclaims_lease :
    let item := itemAfter (firstLease ++ [(.route (.lease "worker-2" 60), 100 * SECOND)])
    item.work.data.lease.bind Lease.workerId = some "worker-2" ∧
      FreshLease item.record 5000 (101 * SECOND) ∧
        ¬ KeepsLease reclaimingPoll (tableOf item.work).rows (workRow item.work)
          (101 * SECOND) (101 * SECOND) := by
  refine ⟨rfl, ?_, ?_⟩
  · unfold FreshLease
    decide
  · rintro ⟨hkept, -⟩
    exact hkept _ List.mem_cons_self rfl

end ManagedAgents
