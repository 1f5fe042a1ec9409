import ManagedAgents.SystemRuns
import ManagedAgents.Writes

/-!
# Rows of the work queue over a run

Work rows are added by the requests that enqueue them and never removed, and
only the last transaction of an execution marks one completed.
-/

namespace ManagedAgents

open LabelledRuns

def Db.workIds (db : Db) : List String :=
  db.work.map EnvironmentWork.id

@[simp] theorem Db.writeWork_workIds
    (db : Db) (read written : EnvironmentWork) :
    (db.writeWork read written).workIds = db.workIds := by
  unfold Db.workIds Db.writeWork
  rw [List.map_map]
  apply List.map_congr_left
  intro current _
  simp only [Function.comp]
  split <;> rfl

theorem Db.mem_workIds {db : Db} {work : EnvironmentWork} (hwork : work ∈ db.work) :
    work.id ∈ db.workIds :=
  List.mem_map.mpr ⟨work, hwork, rfl⟩

theorem Tx.commit_work
    {tx : Tx} {current next : Db} (hcommit : tx.commit current = some next) :
    next.work = current.work ++ tx.enqueued := by
  rw [(Tx.commit_eq_some.mp hcommit).2]

theorem Created.work_eq_nil {py : Python} {db : Db} (hcreated : Created py db) :
    db.work = [] := by
  obtain ⟨seed, context, tx, added, happends, -, hcommit⟩ := hcreated.spec
  rw [Tx.commit_work hcommit, happends.enqueued]
  rfl

/-! ## Rows under writes -/

theorem flushWork_self
    (work written : EnvironmentWork) :
    (flushWork work written work).status = written.status ∧
      (flushWork work written work).data = written.data :=
  ⟨flushColumn_of_read _ rfl, flushColumn_of_read _ rfl⟩

theorem Db.workById_writeWork
    (db : Db) (read written : EnvironmentWork) (workId : String) :
    (db.writeWork read written).workById workId =
      (db.workById workId).map fun current =>
        if workId = read.id then flushWork read written current else current := by
  unfold Db.workById Db.writeWork
  induction db.work with
  | nil => rfl
  | cons row rest ih =>
      rw [List.map_cons, List.find?_cons, List.find?_cons]
      have hsame : (if row.id = read.id then flushWork read written row else row).id =
          row.id := by
        split <;> rfl
      rw [hsame]
      by_cases hrow : row.id = workId
      · simp [hrow]
      · simpa [hrow] using ih

theorem Tx.commit_workById
    {tx : Tx} {current next : Db} {workId : String} {work : EnvironmentWork}
    (hcommit : tx.commit current = some next)
    (hfound : current.workById workId = some work) :
    next.workById workId = some work := by
  unfold Db.workById at *
  rw [Tx.commit_work hcommit, List.find?_append, hfound]
  rfl

/-! ## Current reads -/

/-- The state which a transaction on a work row reads, and its item. -/
def World.rowRead (world : World) : Label → Option (Db × String)
  | .work workId _ _ age _ =>
      (world.snapshot 1 age).map fun read => (read, workId)
  | .claim index age _ =>
      (world.invocations[index]?).bind fun invocation =>
        (world.snapshot invocation.since age).map fun read =>
          (read, invocation.workId)
  | .finish id age _ =>
      (world.reading id age).map fun (execution, read) => (read, execution.workId)
  | _ => none

/-- If the step is a transaction on the row, no write of it stands between the
read and the write of the transaction. -/
def ReadsRow (world : World) (label : Label) (workId : String) : Prop :=
  ∀ row ∈ world.rowRead label, row.2 = workId →
    row.1.workById workId = world.db.workById workId

/-- A transaction on a row reads it as it stands. -/
def ReadsCurrentRow (world : World) (label : Label) : Prop :=
  ∀ row ∈ world.rowRead label, row.1.workById row.2 = world.db.workById row.2

instance (world : World) (label : Label) : Decidable (ReadsCurrentRow world label) := by
  unfold ReadsCurrentRow
  infer_instance

theorem ReadsCurrentRow.readsRow
    {world : World} {label : Label} (hcurrent : ReadsCurrentRow world label)
    (workId : String) : ReadsRow world label workId := by
  rintro row hrow rfl
  exact hcurrent row hrow

theorem WorkWrite.rowRead
    {py : Python} {world : World} {label : Label} {read : Db}
    {work written : EnvironmentWork}
    (hwrite : WorkWrite py world label read work written) :
    world.rowRead label = some (read, work.id) ∧
      read.workById work.id = some work := by
  cases hwrite with
  | route workId request executor age now hlabel hread hfound hhandle =>
      have hid := (Db.workById_eq_some hfound).2
      rw [hid]
      exact ⟨by simp [World.rowRead, hlabel, hread], hfound⟩
  | claimed index age now invocation hlabel hinvocation hread hfound hclaim =>
      have hid := (Db.workById_eq_some hfound).2
      rw [hid]
      exact ⟨by simp [World.rowRead, hlabel, hinvocation, hread], hfound⟩
  | finished id age now execution rewrite hlabel hreading hphase hfound hwritten =>
      have hid := (Db.workById_eq_some hfound).2
      rw [hid]
      exact ⟨by simp [World.rowRead, hlabel, hreading], hfound⟩

/-! ## Enqueued items -/

/-- The items which a transaction enqueues are queued. -/
def EnqueuesQueued (tx : Tx) : Prop :=
  ∀ work ∈ tx.enqueued, work.status = .queued

theorem Written.queued
    {py : Python} {clientTypes : List String} {enqueues : Prop} {start tx : Tx}
    (hwritten : Written py clientTypes enqueues start tx)
    (hstart : EnqueuesQueued start) : EnqueuesQueued tx := by
  induction hwritten with
  | refl => exact hstart
  | update _ update ih => exact ih
  | archived _ ih => exact ih
  | deleted _ ih => exact ih
  | server _ eventType payload ih => exact ih
  | client _ payload htype ih => exact ih
  | enqueued _ hmay trigger metadata ih =>
      intro work hwork
      rcases List.mem_append.mp hwork with hold | hnew
      · exact ih work hold
      · rw [List.mem_singleton.mp hnew]

theorem Transaction.body_queued
    {py : Python} {transaction : Transaction} {read : Db} {context : Context}
    {tx : Tx} (htx : transaction.body py (Tx.begin read context) = some tx) :
    EnqueuesQueued tx := by
  apply (Transaction.body_written htx).queued
  intro work hwork
  cases hwork

/-! ## One step -/

/-- A step keeps the history, or adds one commit that keeps all work rows. -/
theorem step_grows
    {py : Python} {world next : World} {label : Label}
    (hstep : step py world label = some next) :
    next.history = world.history ∨
      ∃ commit, next.history = commit :: world.history ∧
        world.db.workIds ⊆ commit.db.workIds := by
  cases step_history hstep with
  | silent hhistory => exact Or.inl hhistory
  | session attempt tx db hattempt hbody hcommit hhistory =>
      refine Or.inr ⟨_, hhistory, ?_⟩
      intro id hid
      change id ∈ db.workIds
      unfold Db.workIds
      rw [Tx.commit_work hcommit, List.map_append]
      exact List.mem_append_left _ hid
  | work read work written hread hrow hwrite hhistory =>
      refine Or.inr ⟨_, hhistory, ?_⟩
      intro id hid
      rw [Db.writeWork_workIds]
      exact hid

/-! ## What work routes and claims write -/

/-- The worker of the lease. -/
def EnvironmentWork.owner (work : EnvironmentWork) : Option String :=
  presentId (work.data.lease.bind Lease.workerId)

theorem EnvironmentWork.owner_of_lease_eq
    {work written : EnvironmentWork} (hlease : written.data.lease = work.data.lease) :
    written.owner = work.owner := by
  unfold EnvironmentWork.owner
  rw [hlease]

theorem requireLeaseOwner_leased
    {work : EnvironmentWork} {workerId : Option String} {action : String}
    (hpasses : requireLeaseOwner work workerId action = .ok ()) :
    work.status ∈ LEASED_WORK_STATUSES := by
  by_contra hother
  simp [requireLeaseOwner, hother] at hpasses

/-- A caller that passes the check on an owned row is the owner. -/
theorem requireLeaseOwner_owner
    {work : EnvironmentWork} {workerId : Option String} {action worker : String}
    (hpasses : requireLeaseOwner work workerId action = .ok ())
    (howner : work.owner = some worker) : presentId workerId = some worker := by
  unfold EnvironmentWork.owner at howner
  unfold requireLeaseOwner at hpasses
  split at hpasses
  · cases hpasses
  rw [howner] at hpasses
  cases hworker : presentId workerId with
  | none => simp [hworker] at hpasses
  | some other =>
      simp only [hworker] at hpasses
      split at hpasses
      · cases hpasses
      next hsame => rw [not_not.mp hsame]

/-- What a request makes of the status and the lease of a row. -/
inductive RouteWrite (work written : EnvironmentWork) (now : Time) :
    WorkRequest → Prop
  | leased {workerId : String} {leaseSeconds : ℕ}
      (havailable : workAvailableForLease work now = true)
      (hstatus : written.status = .leased) :
      RouteWrite work written now (.lease workerId leaseSeconds)
  | owned {request : WorkRequest}
      (hleased : work.status ∈ LEASED_WORK_STATUSES)
      (hstatus : written.status = .running)
      (howner : ∀ worker, work.owner = some worker → written.owner = some worker) :
      RouteWrite work written now request
  | stopped {payload : Dict}
      (hstatus : written.status = .stopped)
      (hlease : written.data.lease = work.data.lease) :
      RouteWrite work written now (.stop payload)
  | updated {patch : Dict}
      (hstatus : written.status = work.status)
      (hlease : written.data.lease = work.data.lease) :
      RouteWrite work written now (.update patch)
  | reclaimed {olderThanMs : ℕ}
      (hstatus : written.status = work.status) :
      RouteWrite work written now (.reclaim olderThanMs)

section

variable {py : Python} {now : Time} {work written : EnvironmentWork}

theorem ackWork_routeWrite
    {workerId : Option String} {request : WorkRequest}
    (hok : ackWork work workerId now = .ok written) :
    RouteWrite work written now request := by
  unfold ackWork at hok
  split at hok
  · cases hok
  next hpasses =>
    cases hok
    exact RouteWrite.owned (requireLeaseOwner_leased hpasses) rfl fun _ howner => howner

theorem heartbeatWork_routeWrite
    {workerId : Option String} {leaseSeconds : ℕ} {payload : Dict}
    {request : WorkRequest}
    (hok : heartbeatWork work workerId leaseSeconds payload now = .ok written) :
    RouteWrite work written now request := by
  unfold heartbeatWork at hok
  split at hok
  · cases hok
  next hpasses =>
    cases hok
    apply RouteWrite.owned (requireLeaseOwner_leased hpasses) rfl
    intro worker howner
    have hworker := requireLeaseOwner_owner hpasses howner
    simp only [EnvironmentWork.owner, Option.bind_some, hworker, Option.some_or]
    unfold presentId at hworker ⊢
    obtain ⟨-, hpresent⟩ := Option.filter_eq_some_iff.mp hworker
    simp [Option.filter, hpresent]

theorem heartbeatEnvironmentWork_ok
    {request : HeartbeatRequest}
    (hok : heartbeatEnvironmentWork py work request now = .ok written) :
    heartbeatWork work (workerIdForWork work request.workerId request.anthropicWorkerId)
      request.ttlSeconds request.payload now = .ok written := by
  unfold heartbeatEnvironmentWork at hok
  split at hok
  · cases hok
  unfold leaseConflict at hok
  split at hok
  next beaten hbeat =>
    cases hok
    exact hbeat
  next => cases hok

theorem WorkRequest.handle_routeWrite
    {request : WorkRequest} (hhandle : request.handle py now work = some written) :
    RouteWrite work written now request := by
  cases request with
  | lease workerId leaseSeconds =>
      simp only [WorkRequest.handle] at hhandle
      split at hhandle
      next havailable =>
        cases hhandle
        exact RouteWrite.leased havailable rfl
      next => cases hhandle
  | ack workerId anthropicWorkerId =>
      exact ackWork_routeWrite (Except.toOption_eq_some.mp hhandle)
  | heartbeat request =>
      have hok := Except.toOption_eq_some.mp hhandle
      exact heartbeatWork_routeWrite (heartbeatEnvironmentWork_ok hok)
  | stop payload =>
      cases hhandle
      exact RouteWrite.stopped rfl rfl
  | update patch =>
      have hok := Except.toOption_eq_some.mp hhandle
      unfold updateEnvironmentWork at hok
      repeat' split at hok
      all_goals cases hok
      exact RouteWrite.updated rfl rfl
  | reclaim olderThanMs =>
      simp only [WorkRequest.handle, expireReclaimableWork] at hhandle
      repeat' split at hhandle
      all_goals cases hhandle
      exact RouteWrite.reclaimed rfl

/-- A work route does not mark an item completed. -/
theorem WorkRequest.handle_status
    {request : WorkRequest} (hhandle : request.handle py now work = some written) :
    written.status = work.status ∨ written.status ≠ .completed := by
  cases WorkRequest.handle_routeWrite hhandle with
  | leased havailable hstatus => exact Or.inr (by simp [hstatus])
  | owned hleased hstatus howner => exact Or.inr (by simp [hstatus])
  | stopped hstatus hlease => exact Or.inr (by simp [hstatus])
  | updated hstatus hlease => exact Or.inl hstatus
  | reclaimed hstatus => exact Or.inl hstatus

end

/-- A claim marks the row running and keeps its lease. -/
theorem claimWork_writes
    {work written : EnvironmentWork} {workerId : Option String} {now : Time}
    (hclaim : claimWork work workerId now = .ok (some written)) :
    written.status = .running ∧ written.data.lease = work.data.lease := by
  unfold claimWork at hclaim
  simp only at hclaim
  repeat' split at hclaim
  all_goals cases hclaim
  all_goals exact ⟨rfl, rfl⟩

/-- The step marks the item completed: it ends an execution of it that has
returned, and reads a session that is not to be rescheduled. -/
def Completes (world : World) (label : Label) (workId : String) : Prop :=
  ∃ id age now execution read, label = .finish id age now ∧
    world.reading id age = some (execution, read) ∧
    (match execution.phase with | .finishing => True | _ => False) ∧
    execution.workId = workId ∧
    read.session.status ≠ .rescheduling

theorem WorkWrite.completes
    {py : Python} {world : World} {label : Label} {read : Db}
    {work written : EnvironmentWork}
    (hwrite : WorkWrite py world label read work written)
    (hchanged : written.status ≠ work.status)
    (hcompleted : written.status = .completed) :
    Completes world label work.id := by
  cases hwrite with
  | route workId request executor age now hlabel hread hfound hhandle =>
      rcases WorkRequest.handle_status hhandle with hsame | hother
      · exact absurd hsame hchanged
      · exact absurd hcompleted hother
  | claimed index age now invocation hlabel hinvocation hread hfound hclaim =>
      rw [(claimWork_writes hclaim).1] at hcompleted
      cases hcompleted
  | finished id age now execution rewrite hlabel hreading hphase hfound hwritten =>
      have hwork := (Db.workById_eq_some hfound).2
      subst hwritten
      refine ⟨id, age, now, execution, read, hlabel, hreading, ?_⟩
      unfold Phase.finishedRow at hphase
      split at hphase
      · next hfinishing =>
          cases hphase
          refine ⟨by rw [hfinishing]; trivial, hwork.symm, ?_⟩
          intro hrescheduling
          have hstatus : finishedWorkStatus work read.session = .completed :=
            hcompleted
          unfold finishedWorkStatus at hstatus
          simp [hrescheduling] at hstatus
          split at hstatus <;> cases hstatus
      · cases hphase
        cases hcompleted
      · cases hphase

theorem World.db_of_history
    {next : World} {commit : Commit} {older : List Commit}
    (hhistory : next.history = commit :: older) : next.db = commit.db :=
  congrArg Commit.db (List.cons.inj hhistory).1

/-- A completed row was completed before, or the step completes it. -/
theorem step_completed
    {py : Python} {world next : World} {label : Label} {row : EnvironmentWork}
    (hstep : step py world label = some next) (hrow : row ∈ next.db.work)
    (hcompleted : row.status = .completed) :
    (∃ old ∈ world.db.work, old.id = row.id ∧ old.status = .completed) ∨
      (row.id ∈ world.db.workIds ∧ Completes world label row.id) := by
  cases step_history hstep with
  | silent hhistory =>
      rw [World.db_of_history hhistory] at hrow
      exact Or.inl ⟨row, hrow, rfl, hcompleted⟩
  | session attempt tx db hattempt hbody hcommit hhistory =>
      rw [World.db_of_history hhistory] at hrow
      change row ∈ db.work at hrow
      rw [Tx.commit_work hcommit] at hrow
      rcases List.mem_append.mp hrow with hold | hnew
      · exact Or.inl ⟨row, hold, rfl, hcompleted⟩
      · rw [Transaction.body_queued hbody row hnew] at hcompleted
        cases hcompleted
  | work read work written hread hmem hwrite hhistory =>
      rw [World.db_of_history hhistory] at hrow
      obtain ⟨current, hcurrent, hwritten⟩ := List.mem_map.mp hrow
      split at hwritten
      · next hid =>
          subst hwritten
          change flushColumn work.status written.status current.status =
            .completed at hcompleted
          unfold flushColumn at hcompleted
          split at hcompleted
          · exact Or.inl ⟨current, hcurrent, rfl, hcompleted⟩
          · next hchanged =>
              right
              change current.id ∈ _ ∧ Completes world label current.id
              refine ⟨Db.mem_workIds hcurrent, ?_⟩
              rw [hid]
              exact hwrite.completes hchanged hcompleted
      · subst hwritten
        exact Or.inl ⟨current, hcurrent, rfl, hcompleted⟩

/-! ## One row -/

/-- A step leaves a row as it is, or is a transaction that has read and written
it. -/
theorem step_row
    {py : Python} {world next : World} {label : Label} {workId : String}
    {work : EnvironmentWork} (hcurrent : ReadsRow world label workId)
    (hfound : world.db.workById workId = some work)
    (hstep : step py world label = some next) :
    ∃ later, next.db.workById workId = some later ∧
      (later = work ∨ ∃ read written, WorkWrite py world label read work written ∧
        later.status = written.status ∧ later.data = written.data ∧
          next.history.length = world.history.length + 1) := by
  cases step_history hstep with
  | silent hhistory =>
      rw [World.db_of_history hhistory]
      exact ⟨work, hfound, Or.inl rfl⟩
  | session attempt tx db hattempt hbody hcommit hhistory =>
      rw [World.db_of_history hhistory]
      exact ⟨work, Tx.commit_workById hcommit hfound, Or.inl rfl⟩
  | work read row written hread hrow hwrite hhistory =>
      rw [World.db_of_history hhistory]
      change ∃ later, (world.db.writeWork row written).workById workId = some later ∧ _
      rw [Db.workById_writeWork, hfound, Option.map_some]
      refine ⟨_, rfl, ?_⟩
      split
      · next hid =>
          obtain ⟨hrowRead, hreadRow⟩ := hwrite.rowRead
          have hsame := hcurrent _ hrowRead hid.symm
          rw [hfound] at hsame
          rw [← hid, hsame] at hreadRow
          obtain rfl := Option.some.inj hreadRow
          obtain ⟨hstatus, hdata⟩ := flushWork_self work written
          refine Or.inr ⟨read, written, hwrite, hstatus, hdata, ?_⟩
          rw [hhistory, List.length_cons]
      · exact Or.inl rfl

end ManagedAgents
