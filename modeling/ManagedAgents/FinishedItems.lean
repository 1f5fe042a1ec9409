import ManagedAgents.WorkRows

/-!
# Finished work items

A work item that is completed, failed or stopped is left alone by every work
route and by the claim of an execution.  The transactions that end an execution
are not fenced: the one after an exception overwrites a stop, and the one after
a returned turn reschedules an item that another execution has finished.
-/

namespace ManagedAgents

open LabelledRuns

/-! ## Finished rows -/

def WorkStatus.finished : WorkStatus → Bool
  | .completed | .error | .stopped => true
  | _ => false

/-- A finished item stays finished, and a stopped one stopped. -/
def WorkStatus.Stays (before after : WorkStatus) : Prop :=
  (before.finished = true → after.finished = true) ∧
    (before = .stopped → after = .stopped)

instance (before after : WorkStatus) : Decidable (before.Stays after) := by
  unfold WorkStatus.Stays
  infer_instance

theorem WorkStatus.Stays.refl (status : WorkStatus) : status.Stays status :=
  ⟨id, id⟩

theorem WorkStatus.Stays.trans
    {first second third : WorkStatus}
    (hfirst : first.Stays second) (hsecond : second.Stays third) :
    first.Stays third :=
  ⟨fun hfinished => hsecond.1 (hfirst.1 hfinished),
    fun hstopped => hsecond.2 (hfirst.2 hstopped)⟩

theorem WorkStatus.Stays.of_unfinished
    {before : WorkStatus} (after : WorkStatus) (hbefore : before.finished = false) :
    before.Stays after := by
  constructor
  · intro hfinished
    rw [hbefore] at hfinished
    cases hfinished
  · rintro rfl
    cases hbefore

/-- Every item of the older state is in the newer one and stays finished. -/
def Db.ItemsStay (older newer : Db) : Prop :=
  ∀ workId work, older.workById workId = some work →
    ∃ later, newer.workById workId = some later ∧ work.status.Stays later.status

theorem Db.ItemsStay.refl (db : Db) : db.ItemsStay db :=
  fun _ work hwork => ⟨work, hwork, WorkStatus.Stays.refl work.status⟩

theorem Db.ItemsStay.trans
    {first second third : Db}
    (hfirst : first.ItemsStay second) (hsecond : second.ItemsStay third) :
    first.ItemsStay third := by
  intro workId work hwork
  obtain ⟨middle, hmiddle, hstays⟩ := hfirst workId work hwork
  obtain ⟨later, hlater, hstaysLater⟩ := hsecond workId middle hmiddle
  exact ⟨later, hlater, hstays.trans hstaysLater⟩

theorem Db.itemsStay_iff {older newer : Db} :
    older.ItemsStay newer ↔
      ∀ workId ∈ older.workIds, ∀ work ∈ older.workById workId,
        ∃ later ∈ newer.workById workId, work.status.Stays later.status := by
  constructor
  · intro hstay workId _ work hwork
    exact hstay workId work hwork
  · intro hstay workId work hwork
    obtain ⟨hrow, hid⟩ := Db.workById_eq_some hwork
    apply hstay workId _ work hwork
    rw [← hid]
    exact Db.mem_workIds hrow

instance (older newer : Db) : Decidable (older.ItemsStay newer) :=
  decidable_of_iff' _ Db.itemsStay_iff

/-- Once an item is finished, it is finished in every later state. -/
def FinishedForever (history : List Commit) : Prop :=
  history.Pairwise fun newer older => older.db.ItemsStay newer.db

instance (history : List Commit) : Decidable (FinishedForever history) := by
  unfold FinishedForever
  infer_instance

/-! ## Steps -/

/-- The transaction that ends the execution takes a finished item back. -/
def Phase.reopens (phase : Phase) (work : EnvironmentWork)
    (session : ManagedSession) : Bool :=
  match phase with
  | .failing _ => work.status = .stopped
  | .finishing =>
      (work.status = .completed || work.status = .error) &&
        session.status = .rescheduling
  | _ => false

def KeepsFinished (world : World) : Label → Prop
  | .finish id age _ =>
      ∀ reading ∈ world.reading id age,
        ∀ work ∈ reading.2.workById reading.1.workId,
          reading.1.phase.reopens work reading.2.session = false
  | _ => True

instance (world : World) (label : Label) : Decidable (KeepsFinished world label) := by
  unfold KeepsFinished
  split <;> infer_instance

theorem workReadyForExecution_unfinished
    {work : EnvironmentWork} {now : Time}
    (hready : workReadyForExecution work now = true) :
    work.status.finished = false := by
  unfold workReadyForExecution at hready
  cases hstatus : work.status <;> simp [hstatus, WorkStatus.finished] at hready ⊢

theorem leased_unfinished
    {status : WorkStatus} (hleased : status ∈ LEASED_WORK_STATUSES) :
    status.finished = false := by
  cases status <;> simp [LEASED_WORK_STATUSES, WorkStatus.finished] at hleased ⊢

theorem workAvailableForLease_unfinished
    {work : EnvironmentWork} {now : Time}
    (havailable : workAvailableForLease work now = true) :
    work.status.finished = false := by
  rcases (Bool.or_eq_true _ _).mp havailable with hready | hexpired
  · exact workReadyForExecution_unfinished hready
  · apply leased_unfinished
    by_contra hother
    simp [leaseExpired, hother] at hexpired

/-! ## Work routes and claims -/

theorem WorkRequest.handle_stays
    {py : Python} {now : Time} {request : WorkRequest}
    {work written : EnvironmentWork}
    (hhandle : request.handle py now work = some written) :
    work.status.Stays written.status := by
  cases WorkRequest.handle_routeWrite hhandle with
  | leased havailable hstatus =>
      exact WorkStatus.Stays.of_unfinished _
        (workAvailableForLease_unfinished havailable)
  | owned hleased hstatus howner =>
      exact WorkStatus.Stays.of_unfinished _ (leased_unfinished hleased)
  | stopped hstatus hlease =>
      rw [hstatus]
      exact ⟨fun _ => rfl, fun _ => rfl⟩
  | updated hstatus hlease =>
      rw [hstatus]
      exact WorkStatus.Stays.refl _
  | reclaimed hstatus =>
      rw [hstatus]
      exact WorkStatus.Stays.refl _

theorem claimWork_stays
    {work written : EnvironmentWork} {workerId : Option String} {now : Time}
    (hclaim : claimWork work workerId now = .ok (some written)) :
    work.status.Stays written.status := by
  apply WorkStatus.Stays.of_unfinished
  unfold claimWork at hclaim
  simp only at hclaim
  split at hclaim
  next hleased => exact leased_unfinished hleased
  next =>
    split at hclaim
    next hready => exact workReadyForExecution_unfinished hready
    next => cases hclaim

/-! ## Ends of executions -/

theorem finishedWorkStatus_finished
    {work : EnvironmentWork} {session : ManagedSession}
    (hsession : session.status ≠ .rescheduling) :
    (finishedWorkStatus work session).finished = true := by
  simp only [finishedWorkStatus, hsession, if_false]
  repeat' split
  all_goals rfl

theorem finishedWorkStatus_rescheduling
    {work : EnvironmentWork} {session : ManagedSession}
    (hsession : session.status = .rescheduling) :
    finishedWorkStatus work session =
      if work.status = .stopped then .stopped else .rescheduling := by
  simp [finishedWorkStatus, hsession]

/-- Exactly the reopening transactions break the rule. -/
theorem Phase.finishedRow_stays_iff
    {phase : Phase} {rewrite : Db → EnvironmentWork → Time → EnvironmentWork}
    (hphase : phase.finishedRow = some rewrite) (read : Db) (work : EnvironmentWork)
    (now : Time) :
    work.status.Stays (rewrite read work now).status ↔
      phase.reopens work read.session = false := by
  unfold Phase.finishedRow at hphase
  split at hphase
  · cases hphase
    change work.status.Stays (finishedWorkStatus work read.session) ↔
      ((work.status = .completed || work.status = .error) &&
        read.session.status = .rescheduling) = false
    by_cases hsession : read.session.status = .rescheduling
    · rw [finishedWorkStatus_rescheduling hsession]
      cases hstatus : work.status <;>
        simp [WorkStatus.Stays, WorkStatus.finished, hsession]
    · have hfinished := @finishedWorkStatus_finished work read.session hsession
      have hstopped : work.status = .stopped →
          finishedWorkStatus work read.session = .stopped :=
        fun hstatus => if_pos hstatus
      simp only [hsession, decide_false, Bool.and_false, iff_true]
      exact ⟨fun _ => hfinished, hstopped⟩
  · cases hphase
    change work.status.Stays .error ↔ decide (work.status = .stopped) = false
    cases work.status <;> simp [WorkStatus.Stays, WorkStatus.finished]
  · cases hphase

/-! ## Runs -/

section

variable {py : Python} {world next : World} {label : Label}

theorem WorkWrite.stays
    {read : Db} {work written : EnvironmentWork}
    (hkeeps : KeepsFinished world label)
    (hwrite : WorkWrite py world label read work written) :
    work.status.Stays written.status := by
  cases hwrite with
  | route workId request executor age now hlabel hread hfound hhandle =>
      exact WorkRequest.handle_stays hhandle
  | claimed index age now invocation hlabel hinvocation hread hfound hclaim =>
      exact claimWork_stays hclaim
  | finished id age now execution rewrite hlabel hreading hphase hfound hwritten =>
      subst hlabel hwritten
      apply (Phase.finishedRow_stays_iff hphase read work now).mpr
      exact hkeeps (execution, read) hreading work hfound

theorem finishStep_db
    {id : ExecutionId} {age : ℕ} {now : Time} {execution : Execution} {read : Db}
    {rewrite : Db → EnvironmentWork → Time → EnvironmentWork} {work : EnvironmentWork}
    (hreading : world.reading id age = some (execution, read))
    (hphase : execution.phase.finishedRow = some rewrite)
    (hfound : read.workById execution.workId = some work)
    (hstep : finishStep world id age now = some next) :
    next.db = world.db.writeWork work (rewrite read work now) := by
  simp only [finishStep, hreading, hphase, hfound] at hstep
  cases hstep
  rfl

theorem Phase.finishedRow_of_reopens
    {phase : Phase} {work : EnvironmentWork} {session : ManagedSession}
    (hreopens : phase.reopens work session = true) :
    ∃ rewrite, phase.finishedRow = some rewrite := by
  unfold Phase.reopens at hreopens
  split at hreopens
  · exact ⟨_, rfl⟩
  · exact ⟨_, rfl⟩
  · cases hreopens

/-- A transaction that reopens an item leaves the reopened row. -/
theorem keepsFinished_of_itemsStay
    (hcurrent : ReadsCurrentRow world label)
    (hstep : step py world label = some next)
    (hstays : world.db.ItemsStay next.db) : KeepsFinished world label := by
  cases label with
  | finish id age now =>
      rintro ⟨execution, read⟩ hreading work hfound
      rw [Option.mem_def] at hreading hfound
      simp only at hfound ⊢
      by_contra hreopens
      rw [Bool.not_eq_false] at hreopens
      obtain ⟨rewrite, hphase⟩ := Phase.finishedRow_of_reopens hreopens
      have hrow : world.rowRead (.finish id age now) =
          some (read, execution.workId) := by
        simp [World.rowRead, hreading]
      have hread := hcurrent _ hrow
      simp only [hfound] at hread
      obtain ⟨later, hlater, hlast⟩ := hstays execution.workId work hread.symm
      rw [finishStep_db hreading hphase hfound hstep, Db.workById_writeWork, ← hread,
        Option.map_some, if_pos (Db.workById_eq_some hfound).2.symm] at hlater
      obtain rfl := Option.some.inj hlater
      rw [(flushWork_self work _).1, Phase.finishedRow_stays_iff hphase,
        hreopens] at hlast
      cases hlast
  | _ => trivial

theorem step_itemsStay_iff
    (hcurrent : ReadsCurrentRow world label)
    (hstep : step py world label = some next) :
    world.db.ItemsStay next.db ↔ KeepsFinished world label := by
  constructor
  · exact keepsFinished_of_itemsStay hcurrent hstep
  · intro hkeeps workId work hfound
    obtain ⟨later, hlater, hrow⟩ := step_row (hcurrent.readsRow workId) hfound hstep
    refine ⟨later, hlater, ?_⟩
    rcases hrow with rfl | ⟨read, written, hwrite, hstatus, -⟩
    · exact WorkStatus.Stays.refl _
    · rw [hstatus]
      exact hwrite.stays hkeeps

theorem finishedForever_cons_iff
    {commit newest : Commit} {older : List Commit} :
    FinishedForever (commit :: newest :: older) ↔
      FinishedForever (newest :: older) ∧ newest.db.ItemsStay commit.db := by
  unfold FinishedForever
  rw [List.pairwise_cons]
  constructor
  · rintro ⟨hcommit, holder⟩
    exact ⟨holder, hcommit newest List.mem_cons_self⟩
  · rintro ⟨holder, hnewest⟩
    refine ⟨?_, holder⟩
    intro old hold
    rcases List.mem_cons.mp hold with rfl | hold
    · exact hnewest
    · exact ((List.pairwise_cons.mp holder).1 old hold).trans hnewest

theorem step_finishedForever_iff
    (hcurrent : ReadsCurrentRow world label)
    (hstep : step py world label = some next) :
    FinishedForever next.history ↔
      FinishedForever world.history ∧ KeepsFinished world label := by
  rw [← step_itemsStay_iff hcurrent hstep]
  rcases step_grows hstep with hhistory | ⟨commit, hhistory, -⟩
  · rw [World.db_of_history hhistory, hhistory]
    exact (and_iff_left (Db.ItemsStay.refl world.db)).symm
  · rw [World.db_of_history hhistory, hhistory]
    exact finishedForever_cons_iff

/-- In a run whose row transactions read the current row, the finished items
stay finished exactly when no end of an execution takes one back. -/
theorem finished_items_stay_iff
    {db : Db} {labels : List Label} {world : World}
    (hcurrent : AllSteps (step py) ReadsCurrentRow (World.start db) labels)
    (hrun : run (step py) (World.start db) labels = some world) :
    FinishedForever world.history ↔
      AllSteps (step py) KeepsFinished (World.start db) labels := by
  have hstart : FinishedForever (World.start db).history :=
    List.pairwise_singleton _ _
  have hsame := run_iff_allSteps
    (fun _ _ _ hcurrent hstep => step_finishedForever_iff hcurrent hstep) hcurrent hrun
  rw [hsame]
  exact and_iff_right hstart

end

/-! ## A turn and a stopped item -/

theorem sample_item_stays_finished :
    ∃ world, run (step samplePython) (World.start sampleDb) completedTurn =
        some world ∧
      world.db.work.map EnvironmentWork.status = [.completed] ∧
      FinishedForever world.history := by
  have hrun := (Option.some_get (show (run (step samplePython) (World.start sampleDb)
    completedTurn).isSome = true by decide)).symm
  refine ⟨_, hrun, by decide, ?_⟩
  exact (finished_items_stay_iff (by decide) hrun).mpr (by decide)

/-- The item is stopped while an execution of it is about to start its turn,
which raises. -/
def stoppedThenRaised : List Label :=
  [sampleSend [sampleMessage] 0 "b",
   .claim 0 0 0,
   .move 0 .enter,
   .work "work_b1" (.stop []) none 0 5,
   .move 0 (.escape sampleTimeout),
   .move 0 .leave,
   .finish 0 0 9]

theorem exception_overwrites_stop :
    ∃ world, run (step samplePython) (World.start sampleDb) stoppedThenRaised =
        some world ∧
      world.history.map (fun commit => commit.db.work.map EnvironmentWork.status) =
        [[.error], [.stopped], [.running], [.queued], []] ∧
      ¬ FinishedForever world.history := by
  refine ⟨_, (Option.some_get (by decide)).symm, ?_, ?_⟩
  · decide
  · decide

end ManagedAgents
