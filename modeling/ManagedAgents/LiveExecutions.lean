import ManagedAgents.Executions
import ManagedAgents.WorkRows

/-!
# Live executions of a work item

An execution holds its item inline or under the lease of its worker.  Only the
latter is written to the row, so that polls and other claims do not see an
inline execution; a second claim by the worker of the lease passes as well, and
the end of a superseded execution makes the row runnable again.  Otherwise no
lease is granted and no execution claimed while another one holds the item.
-/

namespace ManagedAgents

open LabelledRuns

/-! ## Holds -/

/-- How an execution holds its item: claimed without a worker, under the lease
of its worker, or no longer, since that lease was granted anew or reclaimed. -/
inductive Hold
  | inline
  | leased (workerId : String)
  | lost
deriving DecidableEq

/-- The hold of an execution that claims the row. -/
def claimedHold (work : EnvironmentWork) (workerId : Option String) : Hold :=
  match presentId workerId with
  | none => .inline
  | some worker => if work.owner = some worker then .leased worker else .lost

/-- The request takes the lease away from its worker. -/
def WorkRequest.endsLease : WorkRequest → Bool
  | .lease _ _ | .reclaim _ => true
  | _ => false

def Hold.released : Hold → Hold
  | .leased _ => .lost
  | hold => hold

abbrev Holds := ExecutionId → Hold

def World.executes (world : World) (id : ExecutionId) (workId : String) : Bool :=
  (world.executions id).any fun execution => execution.workId = workId

/-- The holds after a step: a claim adds one, and a commit that grants or
reclaims a lease releases those under the lease before. -/
def updateHolds (world : World) (label : Label) (next : World) (holds : Holds) :
    Holds :=
  match label with
  | .claim index age _ => fun id =>
      if id = world.nextExecution then
        ((world.invocations[index]?).bind fun invocation =>
          ((world.snapshot invocation.since age).bind fun read =>
            read.workById invocation.workId).map fun work =>
              claimedHold work invocation.workerId).getD .lost
      else holds id
  | .work workId request _ _ _ => fun id =>
      if request.endsLease ∧ next.history.length ≠ world.history.length ∧
          world.executes id workId then
        (holds id).released
      else holds id
  | _ => holds

/-- The system with the holds of its executions. -/
def holdStep (py : Python) : World × Holds → Label → Option (World × Holds) :=
  recording (step py) updateHolds

def holdStart (db : Db) : World × Holds :=
  (World.start db, fun _ => .lost)

/-! ## Exclusive executions -/

def LeaseUnexpired (work : EnvironmentWork) (now : Time) : Prop :=
  ∃ expiresAt ∈ work.data.lease.bind Lease.expiresAt, now < expiresAt

instance (work : EnvironmentWork) (now : Time) : Decidable (LeaseUnexpired work now) := by
  unfold LeaseUnexpired
  infer_instance

/-- The item which the step leases or claims, and when. -/
def World.grant (world : World) : Label → Option (String × Time)
  | .work workId (.lease _ _) _ age now =>
      (((world.snapshot 1 age).bind fun read => read.workById workId).filter
        fun work => workAvailableForLease work now).map fun _ => (workId, now)
  | .claim index age now =>
      (world.invocations[index]?).bind fun invocation =>
        ((world.snapshot invocation.since age).bind fun read =>
          read.workById invocation.workId).bind fun work =>
            match claimWork work invocation.workerId now with
            | .ok (some _) => some (invocation.workId, now)
            | _ => none
  | _ => none

/-- The execution is in progress, and was claimed inline or under a lease which
is not over at `now`. -/
def HoldsItem (world : World) (holds : Holds) (workId : String) (now : Time)
    (id : ExecutionId) : Prop :=
  world.executes id workId = true ∧
    match holds id with
    | .inline => True
    | .leased _ => ∃ work ∈ world.db.workById workId, LeaseUnexpired work now
    | .lost => False

/-- No item is leased or claimed while an execution holds it. -/
def Exclusive (state : World × Holds) (label : Label) : Prop :=
  ∀ grant ∈ state.1.grant label, ∀ id, ¬ HoldsItem state.1 state.2 grant.1 grant.2 id

/-! ## Steps -/

/-- The executions of an item in progress. -/
def World.live (world : World) (workId : String) : List ExecutionId :=
  (List.range world.nextExecution).filter fun id => world.executes id workId

/-- The end of the execution reschedules its item. -/
def Phase.reschedules (phase : Phase) (work : EnvironmentWork)
    (session : ManagedSession) : Bool :=
  match phase with
  | .finishing => work.status ≠ .stopped && session.status = .rescheduling
  | _ => false

/-- The second claim of an item passes the check of the lease's owner. -/
def Hold.excludes (hold : Hold) (work : EnvironmentWork) (workerId : Option String)
    (now : Time) : Prop :=
  match hold with
  | .inline => True
  | .leased worker => presentId workerId = some worker ∧ LeaseUnexpired work now
  | .lost => False

instance (hold : Hold) (work : EnvironmentWork) (workerId : Option String) (now : Time) :
    Decidable (hold.excludes work workerId now) := by
  unfold Hold.excludes
  split <;> infer_instance

def Label.isClaim : Label → Bool
  | .claim _ _ _ => true
  | _ => false

/-- No write is lost: a claim, and any transaction on an item which an execution
holds, reads the row as it stands. -/
def LosesNoWrite (state : World × Holds) (label : Label) : Prop :=
  ∀ row ∈ state.1.rowRead label,
    (label.isClaim = true ∨ ∃ id ∈ state.1.live row.2, state.2 id ≠ .lost) →
      row.1.workById row.2 = state.1.db.workById row.2

instance (state : World × Holds) (label : Label) :
    Decidable (LosesNoWrite state label) := by
  unfold LosesNoWrite
  infer_instance

/-- The branches that go wrong are not taken: no poll finds an item executed
inline with its lease missing or expired, no claim passes the check of the owner
of an item executed inline or by the same worker under its lease, and no end of
an execution reschedules an item which another one holds. -/
def Fenced (state : World × Holds) (label : Label) : Prop :=
  match label with
  | .work workId (.lease _ _) _ age now =>
      ∀ read ∈ state.1.snapshot 1 age, ∀ work ∈ read.workById workId,
        leaseExpired work now = true →
          ∀ id ∈ state.1.live workId, state.2 id ≠ .inline
  | .claim index age now =>
      ∀ invocation ∈ state.1.invocations[index]?,
        ∀ read ∈ state.1.snapshot invocation.since age,
          ∀ work ∈ read.workById invocation.workId,
            (requireLeaseOwner work invocation.workerId "execute").isOk = true →
              ∀ id ∈ state.1.live invocation.workId,
                ¬ (state.2 id).excludes work invocation.workerId now
  | .finish id age _ =>
      ∀ reading ∈ state.1.reading id age,
        ∀ work ∈ reading.2.workById reading.1.workId,
          reading.1.phase.reschedules work reading.2.session = true →
            ∀ other ∈ state.1.live reading.1.workId, other ≠ id →
              state.2 other = .lost
  | _ => True

instance (state : World × Holds) (label : Label) : Decidable (Fenced state label) :=
  match label with
  | .work _ (.lease _ _) _ age _ =>
      inferInstanceAs (Decidable (∀ read ∈ state.1.snapshot 1 age, _))
  | .claim index _ _ =>
      inferInstanceAs (Decidable (∀ invocation ∈ state.1.invocations[index]?, _))
  | .finish id age _ =>
      inferInstanceAs (Decidable (∀ reading ∈ state.1.reading id age, _))
  | .work _ (.ack _ _) _ _ _ | .work _ (.heartbeat _) _ _ _ | .work _ (.stop _) _ _ _
  | .work _ (.update _) _ _ _ | .work _ (.reclaim _) _ _ _ | .request _ _ _ _
  | .move _ _ | .turn _ _ _ _ | .abandon _ | .crash _ =>
      inferInstanceAs (Decidable True)

/-! ## Rows behind holds -/

/-- The row is not runnable, and belongs to the worker of the hold. -/
structure Hold.Stands (hold : Hold) (work : EnvironmentWork) : Prop where
  taken : work.status ∉ RUNNABLE_WORK_STATUSES
  owner : ∀ worker, hold = .leased worker → work.owner = some worker

theorem workReadyForExecution_runnable
    {work : EnvironmentWork} {now : Time}
    (hready : workReadyForExecution work now = true) :
    work.status ∈ RUNNABLE_WORK_STATUSES := by
  unfold workReadyForExecution at hready
  cases hstatus : work.status <;>
    simp [hstatus, RUNNABLE_WORK_STATUSES] at hready ⊢

section

variable {hold : Hold} {work written : EnvironmentWork}

theorem Hold.Stands.of_lease_eq
    (hstands : hold.Stands work) (htaken : written.status ∉ RUNNABLE_WORK_STATUSES)
    (hlease : written.data.lease = work.data.lease) : hold.Stands written where
  taken := htaken
  owner := by
    rw [EnvironmentWork.owner_of_lease_eq hlease]
    exact hstands.owner

theorem WorkRequest.handle_stands
    {py : Python} {now : Time} {request : WorkRequest}
    (hstands : hold.Stands work) (hkeeps : request.endsLease = true → hold = .inline)
    (hhandle : request.handle py now work = some written) : hold.Stands written := by
  cases WorkRequest.handle_routeWrite hhandle with
  | leased havailable hstatus =>
      constructor
      · rw [hstatus]
        decide
      · intro worker hworker
        rw [hkeeps rfl] at hworker
        cases hworker
  | owned hleased hstatus howner =>
      constructor
      · rw [hstatus]
        decide
      · intro worker hworker
        exact howner worker (hstands.owner worker hworker)
  | stopped hstatus hlease =>
      apply hstands.of_lease_eq _ hlease
      rw [hstatus]
      decide
  | updated hstatus hlease =>
      apply hstands.of_lease_eq _ hlease
      rw [hstatus]
      exact hstands.taken
  | reclaimed hstatus =>
      constructor
      · rw [hstatus]
        exact hstands.taken
      · intro worker hworker
        rw [hkeeps rfl] at hworker
        cases hworker

theorem finishedWorkStatus_not_runnable
    {session : ManagedSession}
    (hkeeps : Phase.finishing.reschedules work session = false) :
    finishedWorkStatus work session ∉ RUNNABLE_WORK_STATUSES := by
  simp only [Phase.reschedules, Bool.and_eq_false_iff, decide_eq_false_iff_not,
    not_not] at hkeeps
  unfold finishedWorkStatus
  split
  · decide
  next hstopped =>
  split
  · decide
  rw [if_neg (hkeeps.resolve_left hstopped)]
  decide

theorem Phase.finishedRow_stands
    {phase : Phase} {rewrite : Db → EnvironmentWork → Time → EnvironmentWork}
    {read : Db} {now : Time}
    (hstands : hold.Stands work) (hphase : phase.finishedRow = some rewrite)
    (hkeeps : phase.reschedules work read.session = false) :
    hold.Stands (rewrite read work now) := by
  unfold Phase.finishedRow at hphase
  split at hphase
  · cases hphase
    apply hstands.of_lease_eq
    · exact finishedWorkStatus_not_runnable hkeeps
    · simp only [finishWork]
      split <;> rfl
  · cases hphase
    exact hstands.of_lease_eq (by simp [finishFailedWork, RUNNABLE_WORK_STATUSES]) rfl
  · cases hphase

end

/-! ## Every hold is backed by its row -/

structure Backed (world : World) (holds : Holds) : Prop where
  numbered : world.Numbered
  rows : ∀ id execution, world.executions id = some execution → holds id ≠ .lost →
    ∃ work, world.db.workById execution.workId = some work ∧ (holds id).Stands work

theorem World.executes_iff
    {world : World} {id : ExecutionId} {workId : String} :
    world.executes id workId = true ↔
      ∃ execution, world.executions id = some execution ∧ execution.workId = workId := by
  unfold World.executes
  rw [Option.any_eq_true]
  simp

theorem World.mem_live
    {world : World} {id : ExecutionId} {workId : String}
    (hnumbered : world.Numbered) (hexecutes : world.executes id workId = true) :
    id ∈ world.live workId := by
  obtain ⟨execution, hexecution, -⟩ := World.executes_iff.mp hexecutes
  have hlt : id < world.nextExecution := by
    by_contra hge
    rw [hnumbered id (not_lt.mp hge)] at hexecution
    cases hexecution
  exact List.mem_filter.mpr ⟨List.mem_range.mpr hlt, hexecutes⟩

theorem LosesNoWrite.readsRow
    {world : World} {holds : Holds} {label : Label} {workId : String}
    {id : ExecutionId} (hwrites : LosesNoWrite (world, holds) label)
    (hlive : id ∈ world.live workId) (hheld : holds id ≠ .lost) :
    ReadsRow world label workId := by
  rintro row hrow rfl
  exact hwrites row hrow (Or.inr ⟨id, hlive, hheld⟩)

theorem Hold.released_ne_lost
    {hold : Hold} (hkept : hold.released ≠ .lost) : hold = .inline := by
  cases hold with
  | inline => rfl
  | leased worker => exact absurd rfl hkept
  | lost => exact absurd rfl hkept

section

variable {py : Python} {world next : World} {label : Label} {holds : Holds}
  {id : ExecutionId} {read : Db} {work written : EnvironmentWork}

/-- A step takes holds away and does not change those it leaves. -/
theorem updateHolds_kept
    (hold : id ≠ world.nextExecution)
    (hkept : updateHolds world label next holds id ≠ .lost) :
    updateHolds world label next holds id = holds id := by
  cases label with
  | claim index age now => exact if_neg hold
  | work workId request executor age now =>
      simp only [updateHolds] at hkept ⊢
      split
      next hreleases =>
        rw [if_pos hreleases] at hkept
        rw [Hold.released_ne_lost hkept]
        rfl
      next => rfl
  | _ => rfl

theorem WorkWrite.stands
    (hwrite : WorkWrite py world label read work written)
    (hgrew : next.history.length = world.history.length + 1)
    (hfenced : Fenced (world, holds) label) (hlive : id ∈ world.live work.id)
    (hother : ∀ age now, label ≠ .finish id age now)
    (hstands : (holds id).Stands work) (hheld : holds id ≠ .lost)
    (hkept : updateHolds world label next holds id ≠ .lost) :
    (holds id).Stands written := by
  cases hwrite with
  | route workId request executor age now hlabel hread hfound hhandle =>
      subst hlabel
      apply WorkRequest.handle_stands hstands _ hhandle
      intro hends
      have hid := (Db.workById_eq_some hfound).2
      have hexecutes := (List.mem_filter.mp hlive).2
      rw [hid] at hexecutes
      simp only [updateHolds, hends, hgrew, hexecutes] at hkept
      exact Hold.released_ne_lost (by simpa using hkept)
  | claimed index age now invocation hlabel hinvocation hread hfound hclaim =>
      obtain ⟨hstatus, hlease⟩ := claimWork_writes hclaim
      apply hstands.of_lease_eq _ hlease
      rw [hstatus]
      decide
  | finished other age now execution rewrite hlabel hreading hphase hfound hwritten =>
      subst hlabel hwritten
      apply Phase.finishedRow_stands hstands hphase
      cases hreschedules : execution.phase.reschedules work read.session with
      | false => rfl
      | true =>
          have hid := (Db.workById_eq_some hfound).2
          rw [hid] at hlive
          have hne : id ≠ other := by
            rintro rfl
            exact hother age now rfl
          exact absurd (hfenced (execution, read) hreading work hfound hreschedules id
            hlive hne) hheld

theorem claimedHold_leased
    {workerId : Option String} {worker : String}
    (hclaimed : claimedHold work workerId = .leased worker) :
    work.owner = some worker := by
  unfold claimedHold at hclaimed
  split at hclaimed
  · cases hclaimed
  · split at hclaimed
    · cases hclaimed
      assumption
    · cases hclaimed

/-- The row of a new execution, which has just been claimed. -/
theorem claimed_stands
    {hold : Hold} {workerId : Option String} {now : Time}
    (hhold : hold = claimedHold work workerId)
    (hclaim : claimWork work workerId now = .ok (some written)) :
    hold.Stands written := by
  obtain ⟨hstatus, hlease⟩ := claimWork_writes hclaim
  constructor
  · rw [hstatus]
    decide
  · intro worker hworker
    rw [EnvironmentWork.owner_of_lease_eq hlease]
    exact claimedHold_leased (hhold.symm.trans hworker)

theorem Hold.Stands.flush
    {hold : Hold} {later : EnvironmentWork} (hstands : hold.Stands written)
    (hstatus : later.status = written.status) (hdata : later.data = written.data) :
    hold.Stands later := by
  apply hstands.of_lease_eq
  · rw [hstatus]
    exact hstands.taken
  · rw [hdata]

/-- An execution that goes on keeps a row behind its hold. -/
theorem Backed.kept
    (hbacked : Backed world holds) (hwrites : LosesNoWrite (world, holds) label)
    (hfenced : Fenced (world, holds) label)
    (hstep : step py world label = some next)
    {before : Execution} (hbefore : world.executions id = some before)
    (hother : ∀ age now, label ≠ .finish id age now)
    (hkept : updateHolds world label next holds id ≠ .lost) :
    ∃ work, next.db.workById before.workId = some work ∧
      (updateHolds world label next holds id).Stands work := by
  have hexecutes : world.executes id before.workId = true :=
    World.executes_iff.mpr ⟨before, hbefore, rfl⟩
  have hlive := World.mem_live hbacked.numbered hexecutes
  have hold : id ≠ world.nextExecution :=
    (List.mem_range.mp (List.mem_filter.mp hlive).1).ne
  have hsame := updateHolds_kept hold hkept
  have hheld : holds id ≠ .lost := fun hlost => hkept (hsame.trans hlost)
  obtain ⟨work, hfound, hstands⟩ := hbacked.rows id before hbefore hheld
  obtain ⟨later, hlater, hrow⟩ := step_row (hwrites.readsRow hlive hheld) hfound hstep
  refine ⟨later, hlater, ?_⟩
  rw [hsame]
  rcases hrow with rfl | ⟨read, written, hwrite, hstatus, hdata, hgrew⟩
  · exact hstands
  · have hid := (Db.workById_eq_some hfound).2
    rw [← hid] at hlive
    have hwritten := hwrite.stands hgrew hfenced hlive hother hstands hheld hkept
    exact hwritten.flush hstatus hdata

theorem step_backed
    (hbacked : Backed world holds) (hwrites : LosesNoWrite (world, holds) label)
    (hfenced : Fenced (world, holds) label)
    (hstep : step py world label = some next) :
    Backed next (updateHolds world label next holds) := by
  constructor
  · exact step_numbered hbacked.numbered hstep
  · intro id after hafter hkept
    have hother : ∀ age now, label ≠ .finish id age now := by
      rintro age now rfl
      exact (finishStep_execution hstep hafter).2 rfl
    cases step_execution hstep hafter with
    | same hbefore => exact hbacked.kept hwrites hfenced hstep hbefore hother hkept
    | claimed read work hid hnext hphase hsince hread hrow hwork written workerId now
        hfound hclaim hhistory index age invocation hlabel hinvocation hsnapshot
        hinvoked =>
        subst hlabel
        obtain ⟨hworkId, rfl⟩ := hinvoked
        have hrow : world.rowRead (.claim index age now) =
            some (read, invocation.workId) := by
          simp [World.rowRead, hinvocation, hsnapshot]
        have hcurrentRow := hwrites _ hrow (Or.inl rfl)
        simp only at hcurrentRow
        rw [← hworkId, hfound] at hcurrentRow
        have hhold : updateHolds world (.claim index age now) next holds id =
            claimedHold work invocation.workerId := by
          simp [updateHolds, hid, hinvocation, hsnapshot, ← hworkId, hfound]
        rw [World.db_of_history hhistory]
        change ∃ row, (world.db.writeWork work written).workById after.workId =
          some row ∧ _
        rw [Db.workById_writeWork, ← hcurrentRow, Option.map_some, if_pos hwork.symm]
        obtain ⟨hstatus, hdata⟩ := flushWork_self work written
        exact ⟨_, rfl, (claimed_stands hhold hclaim).flush hstatus hdata⟩
    | moved before move hlabel hbefore hphase hsame =>
        have hkeeps := hbacked.kept hwrites hfenced hstep hbefore hother hkept
        rw [hsame]
        exact hkeeps
    | turn before kind age context read transaction hlabel hreading htransaction hturn =>
        have hbefore := (World.reading_eq_some.mp hreading).1
        have hkeeps := hbacked.kept hwrites hfenced hstep hbefore hother hkept
        rw [(hturn.execution hafter).1]
        exact hkeeps

/-! ## Grants -/

/-- Where a grant comes from. -/
inductive Grant (world : World) (label : Label) (workId : String) (now : Time)
    (work : EnvironmentWork) : Prop
  | lease (worker : String) (leaseSeconds : ℕ) (executor : Option ProcessId) (age : ℕ)
      (read : Db)
      (hlabel : label = .work workId (.lease worker leaseSeconds) executor age now)
      (hread : world.snapshot 1 age = some read)
      (hfound : read.workById workId = some work)
      (havailable : workAvailableForLease work now = true)
  | claim (index age : ℕ) (invocation : Invocation) (read : Db)
      (written : EnvironmentWork)
      (hlabel : label = .claim index age now)
      (hinvocation : world.invocations[index]? = some invocation)
      (hread : world.snapshot invocation.since age = some read)
      (hfound : read.workById workId = some work)
      (hworkId : workId = invocation.workId)
      (hclaim : claimWork work invocation.workerId now = .ok (some written))

theorem World.grant_cases
    {workId : String} {now : Time} (hgrant : world.grant label = some (workId, now)) :
    ∃ work, Grant world label workId now work := by
  unfold World.grant at hgrant
  split at hgrant
  next leased worker leaseSeconds executor age time =>
    obtain ⟨work, hwork, heq⟩ := Option.map_eq_some_iff.mp hgrant
    cases heq
    obtain ⟨hfound, havailable⟩ := Option.filter_eq_some_iff.mp hwork
    obtain ⟨read, hread, hfound⟩ := Option.bind_eq_some_iff.mp hfound
    exact ⟨work, Grant.lease worker leaseSeconds executor age read rfl hread hfound
      havailable⟩
  next index age time =>
    obtain ⟨invocation, hinvocation, hrow⟩ := Option.bind_eq_some_iff.mp hgrant
    obtain ⟨work, hwork, hclaims⟩ := Option.bind_eq_some_iff.mp hrow
    obtain ⟨read, hread, hfound⟩ := Option.bind_eq_some_iff.mp hwork
    split at hclaims
    next written hclaim =>
      cases hclaims
      exact ⟨work, Grant.claim index age invocation read written rfl hinvocation hread
        hfound rfl hclaim⟩
    next => cases hclaims
  next => cases hgrant

/-- A claim of a row that is not runnable passes the check of the owner. -/
theorem claimWork_owner
    {workerId : Option String} {now : Time}
    (htaken : work.status ∉ RUNNABLE_WORK_STATUSES)
    (hclaim : claimWork work workerId now = .ok (some written)) :
    requireLeaseOwner work workerId "execute" = .ok () := by
  unfold claimWork at hclaim
  simp only at hclaim
  split at hclaim
  · split at hclaim
    · cases hclaim
    · assumption
  · split at hclaim
    next hready => exact absurd (workReadyForExecution_runnable hready) htaken
    next => cases hclaim

theorem leaseExpired_of_available
    {now : Time} (htaken : work.status ∉ RUNNABLE_WORK_STATUSES)
    (havailable : workAvailableForLease work now = true) :
    leaseExpired work now = true := by
  rcases (Bool.or_eq_true _ _).mp havailable with hready | hexpired
  · exact absurd (workReadyForExecution_runnable hready) htaken
  · exact hexpired

theorem LeaseUnexpired.not_expired
    {now : Time} (hunexpired : LeaseUnexpired work now) :
    leaseExpired work now = false := by
  obtain ⟨expiresAt, hexpires, hlt⟩ := hunexpired
  rw [Option.mem_def] at hexpires
  unfold leaseExpired
  rw [hexpires]
  split
  · rfl
  · simpa using hlt

theorem Backed.exclusive
    (hbacked : Backed world holds) (hwrites : LosesNoWrite (world, holds) label)
    (hfenced : Fenced (world, holds) label) : Exclusive (world, holds) label := by
  rintro ⟨workId, now⟩ hgrant id ⟨hexecutes, hholds⟩
  have hlive := World.mem_live hbacked.numbered hexecutes
  obtain ⟨execution, hexecution, rfl⟩ := World.executes_iff.mp hexecutes
  have hheld : holds id ≠ .lost := by
    intro hlost
    simp only [hlost] at hholds
  obtain ⟨row, hrow, hstands⟩ := hbacked.rows id execution hexecution hheld
  obtain ⟨work, hcase⟩ := World.grant_cases hgrant
  have hcurrent := hwrites.readsRow hlive hheld
  cases hcase with
  | lease worker leaseSeconds executor age read hlabel hread hfound havailable =>
      subst hlabel
      have hsame := hcurrent (read, execution.workId) (by simp [World.rowRead, hread])
        rfl
      rw [hfound, hrow] at hsame
      obtain rfl := Option.some.inj hsame
      have hexpired := leaseExpired_of_available hstands.taken havailable
      cases hhold : holds id with
      | inline => exact hfenced read hread work hfound hexpired id hlive hhold
      | leased owner =>
          simp only [hhold] at hholds
          obtain ⟨current, hcurrentRow, hunexpired⟩ := hholds
          obtain rfl := Option.some.inj (hrow.symm.trans hcurrentRow)
          rw [hunexpired.not_expired] at hexpired
          cases hexpired
      | lost => exact hheld hhold
  | claim index age invocation read written hlabel hinvocation hread hfound hworkId
      hclaim =>
      subst hlabel
      have hsame := hcurrent (read, execution.workId)
        (by simp [World.rowRead, hinvocation, hread, hworkId]) rfl
      rw [hfound, hrow] at hsame
      obtain rfl := Option.some.inj hsame
      have hpasses := claimWork_owner hstands.taken hclaim
      rw [hworkId] at hfound hlive
      have hfree := hfenced invocation hinvocation read hread work hfound
        (by rw [hpasses]; rfl) id hlive
      apply hfree
      change (holds id).excludes work invocation.workerId now
      cases hhold : holds id with
      | inline => trivial
      | leased owner =>
          simp only [hhold] at hholds
          obtain ⟨current, hcurrentRow, hunexpired⟩ := hholds
          obtain rfl := Option.some.inj (hrow.symm.trans hcurrentRow)
          exact ⟨requireLeaseOwner_owner hpasses (hstands.owner owner hhold), hunexpired⟩
      | lost => exact absurd hhold hheld

end

/-! ## Runs -/

theorem holdStart_backed (db : Db) : Backed (World.start db) fun _ => .lost where
  numbered := fun _ _ => rfl
  rows := fun _ _ hexecution => by cases hexecution

/-- In every run that loses no writes and whose steps are fenced, no item is
leased or claimed while an execution holds it. -/
theorem live_executions_exclusive
    {py : Python} {db : Db} {labels : List Label}
    (hwrites : AllSteps (holdStep py) LosesNoWrite (holdStart db) labels)
    (hfenced : AllSteps (holdStep py) Fenced (holdStart db) labels) :
    AllSteps (holdStep py) Exclusive (holdStart db) labels := by
  have hbacked : Backed (holdStart db).1 (holdStart db).2 := holdStart_backed db
  have hboth := AllSteps.and_invariant
    (fun state label next (hstate : Backed state.1 state.2)
        (hlabel : LosesNoWrite state label ∧ Fenced state label) hstep => by
      obtain ⟨hworld, hrecord⟩ := recording_eq_some.mp hstep
      rw [hrecord]
      exact step_backed hstate hlabel.1 hlabel.2 hworld)
    hbacked (hwrites.and hfenced)
  apply hboth.mono
  rintro state label ⟨⟨hreads, hlabel⟩, hstate⟩
  exact hstate.exclusive hreads hlabel

/-! ## A leased execution and an inline one -/

def poll (worker : String) (process : ProcessId) (now : Time) : Label :=
  .work "work_b1" (.lease worker 60) (some process) 0 now

/-- A worker leases and claims the item before the inline execution can, and
another worker polls in vain. -/
def leasedExecution : List Label :=
  [sampleSend [sampleMessage] 0 "b",
   poll "w" 1 5,
   .claim 1 0 6,
   .claim 0 0 7,
   poll "v" 2 8]

theorem sample_lease_exclusive :
    (run (step samplePython) (World.start sampleDb) leasedExecution).isSome = true ∧
      AllSteps (holdStep samplePython) Exclusive (holdStart sampleDb)
        leasedExecution := by
  constructor
  · decide
  · exact live_executions_exclusive (by decide) (by decide)

/-- The item is claimed by its inline execution. -/
def inlineExecution : List Label :=
  [sampleSend [sampleMessage] 0 "b",
   .claim 0 0 0]

def inlineState : World × Holds :=
  (run (holdStep samplePython) (holdStart sampleDb) inlineExecution).get (by decide)

/-- A poll leases the item of the inline execution, and its worker claims a second
execution while the first is in progress. -/
theorem poll_leases_inline_item :
    run (holdStep samplePython) (holdStart sampleDb) inlineExecution =
        some inlineState ∧
      ¬ Exclusive inlineState (poll "w" 1 5) ∧
      ∃ world, run (step samplePython) inlineState.1 [poll "w" 1 5, .claim 0 0 6] =
          some world ∧
        (world.executions 0).map Execution.workId = some "work_b1" ∧
        (world.executions 1).map Execution.workId = some "work_b1" := by
  refine ⟨(Option.some_get _).symm, ?_, _, (Option.some_get (by decide)).symm, ?_, ?_⟩
  · intro hexclusive
    have hgrant : ("work_b1", 5) ∈ inlineState.1.grant (poll "w" 1 5) := by
      decide
    have hinline : inlineState.2 0 = .inline := by
      decide
    apply hexclusive _ hgrant 0
    refine ⟨by decide, ?_⟩
    rw [hinline]
    trivial
  · decide
  · decide

end ManagedAgents
