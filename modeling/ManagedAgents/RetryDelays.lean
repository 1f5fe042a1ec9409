import ManagedAgents.Executions
import ManagedAgents.WorkRows

/-!
# Retry delays

A transient failure stores the time of the next attempt in the session and, at
the end of the execution, in its work item.  Only the item is held back by it:
a turn start looks at the status of the session and not at the time, so that an
execution of another item can overtake the retry.  As long as no step cuts a
delay short, a pending retry is the one in the stop reason of the session.
-/

namespace ManagedAgents

open LabelledRuns SnapshotHistory

/-! ## Pending retries -/

/-- The `retry_at` of a transient failure. -/
def Commit.retryAt (commit : Commit) : Option Time :=
  if commit.isFailure then commit.db.session.stopReason.bind StopReason.retryAt
  else none

def Commit.isResume (commit : Commit) : Bool :=
  match commit.writer.request? with
  | some (.resumeSession _) => true
  | _ => false

/-- Events other than interrupts are sent. -/
def Commit.sendsNewEvents (commit : Commit) : Bool :=
  match commit.writer.request? with
  | some (.sendEvents _ inputs) =>
      inputs.any fun input => input.type ≠ "user.interrupt"
  | _ => false

/-- The clock of the transaction. -/
def Commit.now (commit : Commit) : Option Time :=
  match commit.writer with
  | .session _ _ context => some context.now
  | _ => none

/-- Walk back from the newest commit, `sent` telling whether a newer one has
sent new events. -/
def pendingRetriesFrom (sent : Bool) : List Commit → List Time
  | [] => []
  | commit :: older =>
      if commit.isResume || (sent && commit.isInterrupt) then []
      else
        commit.retryAt.toList ++
          pendingRetriesFrom (sent || commit.sendsNewEvents) older

/-- The retry times of the transient failures after which neither the session
was resumed nor an interrupt was followed by new events. -/
def pendingRetries (history : List Commit) : List Time :=
  pendingRetriesFrom false history

/-- No turn starts before a pending retry. -/
def RetriesAwaited (history : List Commit) : Prop :=
  EveryEntry (fun commit older =>
    commit.isStart = true → ∀ now ∈ commit.now, ∀ retryAt ∈ pendingRetries older,
      retryAt ≤ now) history

/-! ## What an execution has claimed -/

/-- The newest commit which an execution has seen. -/
def World.lastSeen (world : World) (execution : Execution) : Option Commit :=
  world.history.reverse[execution.since - 1]?

/-- The execution has claimed an item that was rescheduled until the time or
beyond. -/
def World.Waited (world : World) (execution : Execution) (retryAt : Time) : Prop :=
  ∃ claim ∈ world.lastSeen execution,
    (∃ row ∈ claim.read.workById execution.workId,
      row.status = .rescheduling ∧ ∃ due ∈ row.data.retryAt, retryAt ≤ due) ∧
    (claim.db.workById execution.workId).isSome = true

instance (world : World) (execution : Execution) (retryAt : Time) :
    Decidable (world.Waited execution retryAt) := by
  unfold World.Waited
  infer_instance

/-! ## Delays that are cut short -/

/-- The time until which the row makes the session wait. -/
def ManagedSession.retryAt (session : ManagedSession) : Option Time :=
  if session.status = .rescheduling then session.stopReason.bind StopReason.retryAt
  else none

/-- The session was resumed after its last transient failure. -/
def resumedSince : List Commit → Bool
  | [] => false
  | commit :: older =>
      if commit.isResume then true
      else if commit.retryAt.isSome then false
      else resumedSince older

/-- The delays which interrupts have ended before their time, as long as the
session is not resumed and no new events are sent. -/
def interruptedRetries : List Commit → List Time
  | [] => []
  | commit :: older =>
      if commit.isResume || commit.sendsNewEvents then []
      else if commit.isInterrupt && !resumedSince older then
        commit.read.session.retryAt.toList ++ interruptedRetries older
      else interruptedRetries older

/-- The turn start passes its checks on the current state. -/
def StartsTurn (world : World) (attempt : Attempt) : Prop :=
  attempt.isStart = true ∧ attempt.read.session.deletedAt = none ∧
    canStartWork attempt.read.session.status attempt.read.session.stopReason = true ∧
      attempt.read.events = world.db.events

instance (world : World) (attempt : Attempt) : Decidable (StartsTurn world attempt) := by
  unfold StartsTurn
  infer_instance

/-- The session is rescheduling until a later time, and the turn starts for an
item which has not been held back until then. -/
def Overtakes (world : World) (attempt : Attempt) : Prop :=
  StartsTurn world attempt ∧ resumedSince world.history = false ∧
    ∃ retryAt ∈ attempt.read.session.retryAt,
      attempt.context.now < retryAt ∧
        ¬ ∃ id ∈ attempt.author, ∃ execution ∈ world.executions id,
          world.Waited execution retryAt

instance (world : World) (attempt : Attempt) : Decidable (Overtakes world attempt) := by
  unfold Overtakes
  infer_instance

/-- The session is idle, an interrupt has ended its delay, and the turn starts
for an item that was left over. -/
def StartsInterrupted (world : World) (attempt : Attempt) : Prop :=
  StartsTurn world attempt ∧ attempt.read.session.status = .idle ∧
    ∃ retryAt ∈ interruptedRetries world.history, attempt.context.now < retryAt

instance (world : World) (attempt : Attempt) :
    Decidable (StartsInterrupted world attempt) := by
  unfold StartsInterrupted
  infer_instance

/-- The clock of the start is behind that of an earlier start or that of the
claim of its item. -/
def StartsBehind (world : World) (attempt : Attempt) : Prop :=
  StartsTurn world attempt ∧
    ((∃ commit ∈ world.history, commit.isStart = true ∧
        ∃ now ∈ commit.now, attempt.context.now < now) ∨
      ∃ id ∈ attempt.author, ∃ execution ∈ world.executions id,
        ∃ claim ∈ world.lastSeen execution,
          ∃ row ∈ claim.db.workById execution.workId,
            ∃ startedAt ∈ row.data.startedAt, attempt.context.now < startedAt)

instance (world : World) (attempt : Attempt) :
    Decidable (StartsBehind world attempt) := by
  unfold StartsBehind
  infer_instance

/-- The time at which the handler of a transient failure lets the session try
again. -/
def nextRetryAt (py : Python) (exc : PyException) (read : ManagedSession) (now : Time) :
    Option Time :=
  if isTransient py exc = true ∧
      nextAttempt read.statusDetails < MAX_TRANSIENT_RETRY_ATTEMPTS then
    (retryAfterSeconds py exc (nextAttempt read.statusDetails)).toOption.map
      fun seconds => now + microseconds seconds
  else none

/-- The turn of a session that does not run any more fails, and brings a retry
forward. -/
def BringsForward (py : Python) (world : World) (attempt : Attempt) : Prop :=
  (attempt.read.events = world.db.events ∧ attempt.read.session.status ≠ .running) ∧
    ∃ exc ∈ attempt.exception,
      ∃ next ∈ nextRetryAt py exc attempt.read.session attempt.context.now,
        ∃ retryAt ∈ pendingRetries world.history, next < retryAt

instance (py : Python) (world : World) (attempt : Attempt) :
    Decidable (BringsForward py world attempt) := by
  unfold BringsForward
  infer_instance

/-- The step does not cut a delay short. -/
def KeepsDelays (py : Python) (world : World) (label : Label) : Prop :=
  ∀ attempt ∈ world.attempt label,
    ¬ Overtakes world attempt ∧ ¬ StartsInterrupted world attempt ∧
      ¬ StartsBehind world attempt ∧ ¬ BringsForward py world attempt

instance (py : Python) (world : World) (label : Label) :
    Decidable (KeepsDelays py world label) := by
  unfold KeepsDelays
  infer_instance

/-! ## Claims of executions -/

/-- The newest commit which the execution has seen is its claim. -/
structure Execution.Claimed (world : World) (execution : Execution) : Prop where
  since_pos : 0 < execution.since
  claim : ∃ read current work written workerId now,
    world.lastSeen execution =
        some
          { writer := .work
            read := read
            db := Db.writeWork current work written } ∧
      read.workById execution.workId = some work ∧
        claimWork work workerId now = .ok (some written)

/-- Executions whose turn has not started have seen nothing after their
claim. -/
def ClaimsSeen (world : World) : Prop :=
  ∀ id execution, world.executions id = some execution → execution.phase.rank ≤ 1 →
    execution.Claimed world

theorem World.lastSeen_cons
    {world next : World} {execution : Execution} {commit seen : Commit}
    (hhistory : next.history = commit :: world.history)
    (hseen : world.lastSeen execution = some seen) :
    next.lastSeen execution = some seen := by
  unfold World.lastSeen at *
  obtain ⟨hlt, -⟩ := List.getElem?_eq_some_iff.mp hseen
  rw [hhistory, List.reverse_cons, List.getElem?_append_left hlt]
  exact hseen

theorem Execution.Claimed.step
    {py : Python} {world next : World} {label : Label} {execution : Execution}
    (hclaimed : execution.Claimed world)
    (hstep : ManagedAgents.step py world label = some next) :
    execution.Claimed next where
  since_pos := hclaimed.since_pos
  claim := by
    obtain ⟨read, current, work, written, workerId, now, hseen, hrow⟩ := hclaimed.claim
    refine ⟨read, current, work, written, workerId, now, ?_, hrow⟩
    rcases step_grows hstep with hhistory | ⟨commit, hhistory, -⟩
    · unfold World.lastSeen at *
      rw [hhistory]
      exact hseen
    · exact World.lastSeen_cons hhistory hseen

/-- A turn that has made a transaction has started. -/
theorem TurnTransaction.started_rank
    {py : Python} {kind : TurnTransaction} {before after : Phase} {start : Tx}
    {reply : PhaseReply} {transaction : Transaction}
    (htransaction : kind.transaction before = some transaction)
    (hreply : kind.reply py before start = some reply)
    (hleads : reply.leadsTo after) : 1 < after.rank := by
  obtain ⟨hle, hlt⟩ := TurnTransaction.leads_rank hreply hleads
  unfold TurnTransaction.transaction at htransaction
  split at htransaction
  all_goals cases htransaction
  · exact hlt (by decide)
  all_goals apply lt_of_lt_of_le _ hle
  all_goals simp [Phase.rank]

theorem step_claimsSeen
    {py : Python} {world next : World} {label : Label}
    (hworld : ClaimsSeen world) (hstep : step py world label = some next) :
    ClaimsSeen next := by
  intro id after hafter hrank
  cases step_execution hstep hafter with
  | same hbefore => exact (hworld id after hbefore hrank).step hstep
  | claimed read work hid hnext hphase hsince hread hrow hwork written workerId now
      hfound hclaim hhistory =>
      constructor
      · rw [hsince, hhistory]
        exact Nat.succ_pos _
      · refine ⟨read, world.db, work, written, workerId, now, ?_, hfound, hclaim⟩
        unfold World.lastSeen
        rw [hsince, hhistory, List.reverse_cons, List.length_cons,
          Nat.add_sub_cancel, List.getElem?_append_right (by simp)]
        simp
  | moved before move hlabel hbefore hphase hsame =>
      have hrankBefore := (Move.phase_rank hphase).trans hrank
      have hclaimed := (hworld id before hbefore hrankBefore).step hstep
      rw [hsame]
      exact ⟨hclaimed.since_pos, hclaimed.claim⟩
  | turn before kind age context read transaction hlabel hreading htransaction hturn =>
      obtain ⟨-, reply, hreply, hleads⟩ := hturn.execution hafter
      have hstarted := TurnTransaction.started_rank htransaction hreply hleads
      omega

/-! ## Claims of rescheduled items -/

/-- A rescheduled item is claimed when its time has come. -/
theorem claimWork_rescheduling
    {work written : EnvironmentWork} {workerId : Option String} {now : Time}
    (hclaim : claimWork work workerId now = .ok (some written))
    (hstatus : work.status = .rescheduling) :
    retryAtDue work now = true ∧ written.data.startedAt = some now ∧
      written.data ≠ work.data := by
  have hunleased : work.status ∉ LEASED_WORK_STATUSES := by
    rw [hstatus]
    decide
  unfold claimWork at hclaim
  simp only at hclaim
  rw [if_neg hunleased] at hclaim
  split at hclaim
  next hready =>
    cases hclaim
    have hdue : retryAtDue work now = true := by
      simpa [workReadyForExecution, hstatus] using hready
    refine ⟨hdue, rfl, ?_⟩
    intro hsame
    have hattempt := congrArg WorkData.attempt hsame
    exact Nat.succ_ne_self _ hattempt
  next => cases hclaim

theorem Db.writeWork_row
    {db : Db} {work written row : EnvironmentWork} {workId : String}
    (hrow : (db.writeWork work written).workById workId = some row)
    (hwork : work.id = workId) (hchanged : written.data ≠ work.data) :
    row.data = written.data := by
  obtain ⟨hmem, hid⟩ := Db.workById_eq_some hrow
  obtain ⟨current, -, hcurrent⟩ := List.mem_map.mp hmem
  split at hcurrent
  · rw [← hcurrent]
    exact if_neg hchanged
  next hother =>
    rw [hcurrent, hid, hwork] at hother
    exact absurd rfl hother

/-- An execution that has waited does not start too early. -/
theorem World.Waited.le
    {world : World} {execution : Execution} {retryAt now : Time}
    (hwaited : world.Waited execution retryAt)
    (hclaimed : execution.Claimed world)
    (hclock : ∀ claim ∈ world.lastSeen execution,
      ∀ row ∈ claim.db.workById execution.workId,
        ∀ startedAt ∈ row.data.startedAt, startedAt ≤ now) : retryAt ≤ now := by
  obtain ⟨claim, hseen, ⟨row, hrow, hstatus, due, hdue, hle⟩, htaken⟩ := hwaited
  obtain ⟨taken, htaken⟩ := Option.isSome_iff_exists.mp htaken
  have hclock := hclock claim hseen taken htaken
  obtain ⟨read, current, work, written, workerId, claimedAt, hclaim, hfound, hwritten⟩ :=
    hclaimed.claim
  rw [Option.mem_def, hclaim] at hseen
  cases hseen
  obtain rfl : work = row := Option.some.inj (hfound.symm.trans hrow)
  obtain ⟨hready, hnow, hchanged⟩ := claimWork_rescheduling hwritten hstatus
  have hdata := Db.writeWork_row htaken (Db.workById_eq_some hfound).2 hchanged
  have hbefore : claimedAt ≤ now := hclock claimedAt (by rw [hdata, hnow]; rfl)
  unfold retryAtDue at hready
  rw [Option.mem_def.mp hdue] at hready
  have hready : due ≤ claimedAt := of_decide_eq_true hready
  exact hle.trans (hready.trans hbefore)

/-! ## Walking back -/

section

variable {commit : Commit} {older : List Commit} {sent : Bool} {retryAt : Time}

theorem mem_pendingRetriesFrom_cons
    (hmem : retryAt ∈ pendingRetriesFrom sent (commit :: older)) :
    (commit.isResume = false ∧ (sent && commit.isInterrupt) = false) ∧
      (commit.retryAt = some retryAt ∨
        retryAt ∈ pendingRetriesFrom (sent || commit.sendsNewEvents) older) := by
  unfold pendingRetriesFrom at hmem
  split at hmem
  · cases hmem
  · next hopen =>
      rw [Bool.not_eq_true, Bool.or_eq_false_iff] at hopen
      rw [List.mem_append, Option.mem_toList] at hmem
      exact ⟨hopen, hmem⟩

/-- After new events fewer retries are pending. -/
theorem pendingRetriesFrom_subset
    {history : List Commit} (hmem : retryAt ∈ pendingRetriesFrom true history) :
    retryAt ∈ pendingRetriesFrom sent history := by
  induction history generalizing sent with
  | nil => cases hmem
  | cons commit older ih =>
      obtain ⟨⟨hresume, hinterrupt⟩, hrest⟩ := mem_pendingRetriesFrom_cons hmem
      rw [Bool.true_and] at hinterrupt
      unfold pendingRetriesFrom
      rw [hresume, hinterrupt, Bool.and_false]
      rcases hrest with hfirst | hrest
      · rw [hfirst]
        exact List.mem_append_left _ List.mem_cons_self
      · exact List.mem_append_right _ (ih hrest)

/-- No retry of a session that was resumed is pending. -/
theorem resumedSince_eq_false
    {history : List Commit} (hmem : retryAt ∈ pendingRetriesFrom sent history) :
    resumedSince history = false := by
  induction history generalizing sent with
  | nil => rfl
  | cons commit older ih =>
      obtain ⟨⟨hresume, -⟩, hrest⟩ := mem_pendingRetriesFrom_cons hmem
      unfold resumedSince
      rw [hresume]
      rcases hrest with hfirst | hrest
      · rw [hfirst]
        rfl
      · rw [ih hrest]
        simp

end

/-! ## What holds a pending retry back -/

/-- A turn has started at the time or later. -/
def Awaited (history : List Commit) (retryAt : Time) : Prop :=
  ∃ commit ∈ history, commit.isStart = true ∧ ∃ now ∈ commit.now, retryAt ≤ now

/-- The retry has been awaited, or the row holds it back. -/
def Held (history : List Commit) (session : ManagedSession) (retryAt : Time) : Prop :=
  Awaited history retryAt ∨ (∃ due ∈ session.retryAt, retryAt ≤ due) ∨
    session.status = .terminated

/-- A pending retry is the one in the stop reason, unless it has been awaited
or an interrupt has cut it short. -/
structure RetriesHeld (history : List Commit) (session : ManagedSession) : Prop where
  pending : ∀ retryAt ∈ pendingRetriesFrom false history,
    Held history session retryAt ∨
      session.status = .idle ∧ ∃ due ∈ interruptedRetries history, retryAt ≤ due
  sent : ∀ retryAt ∈ pendingRetriesFrom true history, Held history session retryAt

theorem Awaited.cons
    {commit : Commit} {older : List Commit} {retryAt : Time}
    (hawaited : Awaited older retryAt) : Awaited (commit :: older) retryAt := by
  obtain ⟨start, hmem, hfacts⟩ := hawaited
  exact ⟨start, List.mem_cons_of_mem _ hmem, hfacts⟩

theorem Held.awaited
    {history : List Commit} {session : ManagedSession} {retryAt : Time}
    (hheld : Held history session retryAt)
    (hstatus : session.status = .idle ∨ session.status = .running) :
    Awaited history retryAt := by
  rcases hheld with hawaited | ⟨due, hdue, -⟩ | hterminated
  · exact hawaited
  · unfold ManagedSession.retryAt at hdue
    rw [if_neg (by rcases hstatus with h | h <;> simp [h])] at hdue
    cases hdue
  · rcases hstatus with hstatus | hstatus
    · rw [hstatus] at hterminated
      cases hterminated
    · rw [hstatus] at hterminated
      cases hterminated

section

variable {commit : Commit} {older : List Commit} {before after : ManagedSession}

/-- Every retry is held back by a commit that holds back the older ones. -/
theorem RetriesHeld.of_held
    (hheld : ∀ retryAt, retryAt ∈ pendingRetriesFrom false older ∨
      commit.retryAt = some retryAt → Held (commit :: older) after retryAt) :
    RetriesHeld (commit :: older) after := by
  have hall : ∀ sent retryAt, retryAt ∈ pendingRetriesFrom sent (commit :: older) →
      Held (commit :: older) after retryAt := by
    intro sent retryAt hmem
    obtain ⟨-, hfirst | hrest⟩ := mem_pendingRetriesFrom_cons hmem
    · exact hheld retryAt (Or.inr hfirst)
    · apply hheld retryAt (Or.inl _)
      cases hsent : sent || commit.sendsNewEvents with
      | false =>
          rw [hsent] at hrest
          exact hrest
      | true =>
          rw [hsent] at hrest
          exact pendingRetriesFrom_subset hrest
  exact ⟨fun retryAt hmem => Or.inl (hall false retryAt hmem), hall true⟩

theorem RetriesHeld.kept
    (hheld : RetriesHeld older before) (hretryAt : commit.retryAt = none)
    (hinterrupt : commit.isInterrupt = false) (hstatus : after.status = before.status)
    (hsame : after.retryAt = before.retryAt) : RetriesHeld (commit :: older) after := by
  have hcons : ∀ {retryAt}, Held older before retryAt →
      Held (commit :: older) after retryAt := by
    intro retryAt hold
    unfold Held
    rw [hstatus, hsame]
    exact hold.imp_left Awaited.cons
  constructor
  · intro retryAt hmem
    obtain ⟨⟨hresume, -⟩, hfirst | hrest⟩ := mem_pendingRetriesFrom_cons hmem
    · rw [hretryAt] at hfirst
      cases hfirst
    · rw [Bool.false_or] at hrest
      cases hsends : commit.sendsNewEvents with
      | true =>
          rw [hsends] at hrest
          exact Or.inl (hcons (hheld.sent retryAt hrest))
      | false =>
          rw [hsends] at hrest
          refine (hheld.pending retryAt hrest).imp hcons fun ⟨hidle, hcut⟩ => ?_
          refine ⟨hstatus.trans hidle, ?_⟩
          unfold interruptedRetries
          simpa [hresume, hsends, hinterrupt] using hcut
  · intro retryAt hmem
    obtain ⟨-, hfirst | hrest⟩ := mem_pendingRetriesFrom_cons hmem
    · rw [hretryAt] at hfirst
      cases hfirst
    · exact hcons (hheld.sent retryAt hrest)

/-- An interrupt cuts the delay of the row short. -/
theorem RetriesHeld.interrupted
    (hheld : RetriesHeld older before) (hretryAt : commit.retryAt = none)
    (hinterrupt : commit.isInterrupt = true)
    (hread : commit.read.session.retryAt = before.retryAt)
    (hopen : before.status ≠ .terminated)
    (hsends : commit.sendsNewEvents = true → before.status = .idle)
    (hidle : after.status = .idle) : RetriesHeld (commit :: older) after := by
  constructor
  · intro retryAt hmem
    obtain ⟨⟨hresume, -⟩, hfirst | hrest⟩ := mem_pendingRetriesFrom_cons hmem
    · rw [hretryAt] at hfirst
      cases hfirst
    rw [Bool.false_or] at hrest
    cases hnew : commit.sendsNewEvents with
    | true =>
        rw [hnew] at hrest
        have hawaited := (hheld.sent retryAt hrest).awaited (Or.inl (hsends hnew))
        exact Or.inl (Or.inl hawaited.cons)
    | false =>
        rw [hnew] at hrest
        have hresumed := resumedSince_eq_false hrest
        have hcut : interruptedRetries (commit :: older) =
            before.retryAt.toList ++ interruptedRetries older := by
          rw [interruptedRetries, hread]
          simp [hresume, hnew, hinterrupt, hresumed]
        rw [hcut]
        rcases hheld.pending retryAt hrest with
          (hawaited | ⟨due, hdue, hle⟩ | hterminated) | ⟨-, due, hdue, hle⟩
        · exact Or.inl (Or.inl hawaited.cons)
        · refine Or.inr ⟨hidle, due, ?_, hle⟩
          exact List.mem_append_left _ (Option.mem_toList.mpr hdue)
        · exact absurd hterminated hopen
        · exact Or.inr ⟨hidle, due, List.mem_append_right _ hdue, hle⟩
  · intro retryAt hmem
    obtain ⟨⟨-, hnone⟩, -⟩ := mem_pendingRetriesFrom_cons hmem
    rw [hinterrupt] at hnone
    cases hnone

/-- While a turn runs, every pending retry has been awaited. -/
theorem RetriesHeld.awaited
    (hheld : RetriesHeld older before) (hrunning : before.status = .running)
    {retryAt : Time} (hmem : retryAt ∈ pendingRetriesFrom false older) :
    Awaited older retryAt := by
  rcases hheld.pending retryAt hmem with hheld | ⟨hidle, -⟩
  · exact hheld.awaited (Or.inr hrunning)
  · rw [hrunning] at hidle
    cases hidle

end

/-! ## One commit -/

/-- New events are sent to an idle session. -/
theorem sendEvents_idle
    {py : Python} {environment : Option Environment} {inputs : List SessionEventInput}
    {start tx : Tx} (htx : sendEvents py environment inputs start = .ok tx)
    (hnew : (inputs.any fun input => input.type ≠ "user.interrupt") = true) :
    start.session.status = .idle := by
  obtain ⟨⟨-, -, hopen, -⟩, hvalid, -⟩ := sendEvents_ok_iff.mp htx
  have hinactive : start.session.status ∉ ACTIVE_STATUSES := by
    intro hactive
    have htypes := validateEventBatch_active hvalid hactive
    obtain ⟨input, hinput, hother⟩ := List.any_eq_true.mp hnew
    have htype := List.mem_map_of_mem (f := SessionEventInput.type) hinput
    rw [htypes, List.mem_singleton] at htype
    exact of_decide_eq_true hother htype
  cases hstatus : start.session.status with
  | idle => rfl
  | running | rescheduling =>
      rw [hstatus] at hinactive
      exact absurd (by decide) hinactive
  | terminated => exact absurd hstatus hopen

/-- A handled failure ends the session or holds it back until the next attempt. -/
theorem failTurn_nextRetryAt
    {py : Python} {exc : PyException} {start tx : Tx}
    (htx : failTurn py exc start = .ok tx) :
    tx.session.status = .terminated ∨
      tx.session.status = .rescheduling ∧
        ∃ next, nextRetryAt py exc start.session start.context.now = some next ∧
          tx.session.stopReason.bind StopReason.retryAt = some next := by
  unfold failTurn at htx
  split at htx
  · cases htx
  · next htransient =>
      unfold markTransientRuntimeFailure at htx
      simp only at htx
      split at htx
      · cases htx
      next seconds hseconds =>
      split at htx
      · cases htx
      split at htx
      · cases htx
        exact Or.inl rfl
      · next hleft =>
          cases htx
          refine Or.inr ⟨rfl, start.context.now + microseconds seconds, ?_, rfl⟩
          unfold nextRetryAt
          rw [if_pos ⟨by simp [isTransient, htransient], not_le.mp hleft⟩, hseconds]
          rfl
  · cases htx
    exact Or.inl rfl

theorem Attempt.retryAt_commit
    {attempt : Attempt} {db : Db} (hnone : attempt.exception = none) :
    (attempt.commit db).retryAt = none := by
  unfold Commit.retryAt Commit.isFailure Commit.transaction Attempt.commit
  unfold Attempt.exception at hnone
  generalize attempt.transaction = transaction at hnone
  cases transaction with
  | failure exc => cases hnone
  | _ => rfl

theorem ManagedSession.retryAt_of_control
    {session other : ManagedSession} (hcontrol : session.control = other.control) :
    session.retryAt = other.retryAt := by
  have hstatus : session.status = other.status := congrArg Control.status hcontrol
  have hstop : session.stopReason = other.stopReason :=
    congrArg Control.stopReason hcontrol
  unfold ManagedSession.retryAt
  rw [hstatus, hstop]

theorem ManagedSession.retryAt_idle
    {session : ManagedSession} (hidle : session.status = .idle) :
    session.retryAt = none := by
  simp [ManagedSession.retryAt, hidle]

theorem Committed.sendsNewEvents
    {py : Python} {world : World} {attempt : Attempt} {tx : Tx} {db : Db}
    (hcommitted : Committed py world attempt tx db)
    (hsends : (attempt.commit db).sendsNewEvents = true) :
    attempt.read.session.status = .idle := by
  have hbody := hcommitted.body
  unfold Commit.sendsNewEvents Attempt.commit Writer.request? at hsends
  generalize htransaction : attempt.transaction = transaction at hsends hbody
  split at hsends
  · next environment inputs hrequest =>
      cases transaction with
      | request call =>
          cases hrequest
          exact sendEvents_idle (Except.toOption_eq_some.mp hbody) hsends
      | _ => cases hrequest
  · cases hsends

/-- A commit that cuts no delay short leaves every pending retry held. -/
theorem Committed.retriesHeld
    {py : Python} {world : World} {attempt : Attempt} {tx : Tx} {db : Db}
    (hcommitted : Committed py world attempt tx db)
    (hforward : ¬ BringsForward py world attempt)
    (hstarts : attempt.isStart = true →
      ∀ retryAt ∈ pendingRetries world.history, retryAt ≤ attempt.context.now)
    (hheld : RetriesHeld world.history world.db.session) :
    RetriesHeld (attempt.commit db :: world.history) db.session := by
  have hspec := hcommitted.spec
  rcases hspec.control_cases with ⟨hkeeps, hcontrol, -⟩ | ⟨hne, hread, hwrote⟩
  · apply hheld.kept
    · apply Attempt.retryAt_commit
      unfold Attempt.exception
      cases htransaction : attempt.transaction with
      | failure exc =>
          rw [htransaction] at hkeeps
          exact hkeeps.elim
      | _ => rfl
    · exact Attempt.isInterrupt_of_keepsControl hkeeps db
    · exact congrArg Control.status hcontrol
    · exact ManagedSession.retryAt_of_control hcontrol
  have hevents := hspec.readEvents hne
  rw [hcommitted.snapshot] at hread hevents
  have hstatus : attempt.read.session.status = world.db.session.status :=
    congrArg Control.status hread
  have hbody := hcommitted.body
  have heffect := hspec.effect
  rw [hcommitted.snapshot] at heffect
  generalize htransaction : attempt.transaction = transaction at heffect hbody
  have hretryAt (hother : ∀ exc, transaction ≠ .failure exc) :
      (attempt.commit db).retryAt = none := by
    apply Attempt.retryAt_commit
    cases hexc : attempt.exception with
    | none => rfl
    | some exc =>
        rw [Attempt.exception_eq_some.mp hexc] at htransaction
        exact absurd htransaction.symm (hother exc)
  cases heffect with
  | kept hkeeps hcontrol _ =>
      have hsame := hwrote.trans (hcontrol.trans hread)
      apply hheld.kept
      · apply hretryAt
        rintro exc rfl
        exact hkeeps
      · rw [← htransaction] at hkeeps
        exact Attempt.isInterrupt_of_keepsControl hkeeps db
      · exact congrArg Control.status hsame
      · exact ManagedSession.retryAt_of_control hsame
  | interrupted hinterrupt _ hopen hcontrol _ =>
      apply hheld.interrupted
      · exact hretryAt (by simp)
      · rw [Attempt.isInterrupt_sendEvents htransaction, hinterrupt]
      · exact ManagedSession.retryAt_of_control hread
      · rw [← hstatus]
        exact hopen
      · intro hsends
        rw [← hstatus]
        exact hcommitted.sendsNewEvents hsends
      · exact congrArg Control.status (hwrote.trans hcontrol)
  | actionSubmitted hnone _ hidle _ hcontrol _ =>
      have hafter : db.session.status = .idle :=
        congrArg Control.status (hwrote.trans hcontrol)
      rw [hstatus] at hidle
      apply hheld.kept
      · exact hretryAt (by simp)
      · rw [Attempt.isInterrupt_sendEvents htransaction, hnone]
      · rw [hafter, hidle]
      · rw [ManagedSession.retryAt_idle hafter, ManagedSession.retryAt_idle hidle]
  | deleted _ _ hterminated _ _ =>
      exact RetriesHeld.of_held fun _ _ =>
        Or.inr (Or.inr ((congrArg Control.status hwrote).trans hterminated))
  | cancelled _ hcontrol _ =>
      exact RetriesHeld.of_held fun _ _ =>
        Or.inr (Or.inr (congrArg Control.status (hwrote.trans hcontrol)))
  | started _ _ hcontrol _ =>
      have hstart : attempt.isStart = true := by
        simp [Attempt.isStart, htransaction]
      apply RetriesHeld.of_held
      rintro retryAt (hpending | hfailed)
      · refine Or.inl ⟨_, List.mem_cons_self, ?_, attempt.context.now, rfl, ?_⟩
        · rw [Attempt.isStart_commit, hstart]
        · exact hstarts hstart retryAt hpending
      · rw [hretryAt (by simp)] at hfailed
        cases hfailed
  | concluded hrunning _ _ _ _ =>
      rw [hstatus] at hrunning
      apply RetriesHeld.of_held
      rintro retryAt (hpending | hfailed)
      · exact Or.inl (hheld.awaited hrunning hpending).cons
      · rw [hretryAt (by simp)] at hfailed
        cases hfailed
  | @rescheduled exc _ _ _ _ _ _ | @failed exc _ _ _ _ =>
      have hfail : failTurn py exc (Tx.begin attempt.read attempt.context) = .ok tx :=
        Except.toOption_eq_some.mp hbody
      have hafter : db.session.retryAt = tx.session.retryAt :=
        ManagedSession.retryAt_of_control hwrote
      apply RetriesHeld.of_held
      rcases failTurn_nextRetryAt hfail with hterminated | ⟨hwaits, due, hnext, hdue⟩
      · intro _ _
        exact Or.inr (Or.inr ((congrArg Control.status hwrote).trans hterminated))
      have hrow : db.session.retryAt = some due := by
        rw [hafter, ManagedSession.retryAt, if_pos hwaits, hdue]
      rintro retryAt (hpending | hfailed)
      · by_cases hrunning : attempt.read.session.status = .running
        · rw [hstatus] at hrunning
          exact Or.inl (hheld.awaited hrunning hpending).cons
        · refine Or.inr (Or.inl ⟨due, hrow, ?_⟩)
          by_contra hearly
          exact hforward ⟨⟨hevents, hrunning⟩, exc,
            Attempt.exception_eq_some.mpr htransaction, due, hnext, retryAt, hpending,
            not_le.mp hearly⟩
      · refine Or.inr (Or.inl ⟨due, hrow, le_of_eq ?_⟩)
        have hstop : db.session.stopReason = tx.session.stopReason :=
          congrArg Control.stopReason hwrote
        unfold Commit.retryAt at hfailed
        split at hfailed
        · change db.session.stopReason.bind StopReason.retryAt = some retryAt at hfailed
          rw [hstop, hdue] at hfailed
          exact (Option.some.inj hfailed).symm
        · cases hfailed

/-! ## Whole runs -/

theorem World.attempt_start
    {world : World} {label : Label} {attempt : Attempt}
    (hattempt : world.attempt label = some attempt) (hstart : attempt.isStart = true) :
    ∃ id execution, attempt.author = some id ∧ world.executions id = some execution ∧
      execution.phase.rank ≤ 1 := by
  cases label with
  | request process call age context =>
      obtain ⟨read, -, rfl⟩ := Option.map_eq_some_iff.mp hattempt
      cases hstart
  | turn id kind age context =>
      obtain ⟨⟨execution, read⟩, hreading, hmap⟩ :=
        Option.bind_eq_some_iff.mp hattempt
      obtain ⟨transaction, htransaction, rfl⟩ := Option.map_eq_some_iff.mp hmap
      refine ⟨id, execution, rfl, (World.reading_eq_some.mp hreading).1, ?_⟩
      unfold TurnTransaction.transaction at htransaction
      split at htransaction
      next hphase =>
        rw [hphase]
        exact le_rfl
      all_goals cases htransaction
      all_goals cases hstart
  | _ => cases hattempt

/-- A turn start that cuts no delay short comes after every pending retry. -/
theorem RetriesHeld.le_start
    {py : Python} {world : World} {label : Label} {attempt : Attempt} {tx : Tx} {db : Db}
    (hheld : RetriesHeld world.history world.db.session)
    (hclaims : ClaimsSeen world) (hkeeps : KeepsDelays py world label)
    (hattempt : world.attempt label = some attempt)
    (hcommitted : Committed py world attempt tx db)
    (hstart : attempt.isStart = true) {retryAt : Time}
    (hpending : retryAt ∈ pendingRetries world.history) :
    retryAt ≤ attempt.context.now := by
  obtain ⟨hovertakes, hinterrupted, hbehind, -⟩ := hkeeps attempt hattempt
  have hturn : StartsTurn world attempt := ⟨hstart, hcommitted.started hstart⟩
  have hcan := hturn.2.2.1
  have hread : attempt.read.session.control = world.db.session.control := by
    have hfenced := hcommitted.earlier.fenced (congrArg List.length hturn.2.2.2)
    exact ManagedSession.control_of_fenced hfenced
  have hstatus : attempt.read.session.status = world.db.session.status :=
    congrArg Control.status hread
  rcases hheld.pending retryAt hpending with
    (⟨start, hmem, hstarted, now, hnow, hle⟩ | ⟨due, hdue, hle⟩ | hterminated) |
      ⟨hidle, due, hdue, hle⟩
  · apply hle.trans
    by_contra hearly
    exact hbehind ⟨hturn, Or.inl ⟨start, hmem, hstarted, now, hnow, not_le.mp hearly⟩⟩
  · apply hle.trans
    by_contra hearly
    rw [← ManagedSession.retryAt_of_control hread] at hdue
    apply hovertakes
    refine ⟨hturn, resumedSince_eq_false hpending, due, hdue, not_le.mp hearly, ?_⟩
    rintro ⟨id, hid, execution, hexecution, hwaited⟩
    obtain ⟨author, found, hauthor, hfound, hrank⟩ := World.attempt_start hattempt hstart
    obtain rfl : author = id := Option.some.inj (hauthor.symm.trans hid)
    obtain rfl : found = execution := Option.some.inj (hfound.symm.trans hexecution)
    apply hearly
    apply hwaited.le (hclaims author found hfound hrank)
    intro claim hclaim row hrow startedAt hstartedAt
    by_contra hclock
    exact hbehind
      ⟨hturn, Or.inr ⟨author, hauthor, found, hfound, claim, hclaim, row, hrow,
      startedAt, hstartedAt, not_le.mp hclock⟩⟩
  · rw [hstatus, hterminated] at hcan
    cases hcan
  · apply hle.trans
    by_contra hearly
    rw [← hstatus] at hidle
    exact hinterrupted ⟨hturn, hidle, due, hdue, not_le.mp hearly⟩

/-- In every run in which no step cuts a delay short, the session waits for every
pending retry. -/
theorem retries_awaited
    {py : Python} {db : Db} {labels : List Label} {world : World}
    (hcreated : Created py db)
    (hkeeps : AllSteps (step py) (KeepsDelays py) (World.start db) labels)
    (hrun : run (step py) (World.start db) labels = some world) :
    RetriesAwaited world.history := by
  have hstart : ClaimsSeen (World.start db) := by
    intro id execution hexecution
    cases hexecution
  have hsteps := hkeeps.and_invariant
    (fun _ _ _ hworld _ hstep => step_claimsSeen hworld hstep) hstart
  have hboth : RetriesAwaited world.history ∧
      ∀ last ∈ world.history.head?, RetriesHeld world.history last.db.session := by
    refine @run_history py
      (fun world label => KeepsDelays py world label ∧ ClaimsSeen world)
      (fun history => RetriesAwaited history ∧
        ∀ last ∈ history.head?, RetriesHeld history last.db.session)
      ?start ?session ?work _ _ _ hcreated hsteps hrun
    case start =>
      intro created _
      have hnone : RetriesAwaited [] := everyEntry_nil
      constructor
      · apply hnone.cons
        intro hstarts
        cases hstarts
      · intro last hlast
        apply RetriesHeld.of_held
        rintro retryAt (hpending | hfailed)
        · cases hpending
        · cases hfailed
    case session =>
      intro before label attempt tx next hbefore hlabel hattempt hcommitted
      have hheld := hbefore.2 before.last rfl
      have hle : attempt.isStart = true →
          ∀ retryAt ∈ pendingRetries before.history, retryAt ≤ attempt.context.now :=
        fun hisStart _ hpending =>
          hheld.le_start hlabel.2 hlabel.1 hattempt hcommitted hisStart hpending
      constructor
      · apply hbefore.1.cons
        intro hisStart now hnow
        rw [Attempt.isStart_commit] at hisStart
        obtain rfl : attempt.context.now = now := Option.some.inj hnow
        exact hle hisStart
      · intro last hlast
        obtain rfl : attempt.commit next = last := by simpa using hlast
        exact hcommitted.retriesHeld (hlabel.1 attempt hattempt).2.2.2 hle hheld
    case work =>
      intro before read next hbefore hsession _
      constructor
      · apply hbefore.1.cons
        intro hstarts
        cases hstarts
      · intro last hlast
        obtain rfl : Commit.mk Writer.work read next = last := by simpa using hlast
        apply (hbefore.2 before.last rfl).kept
        · rfl
        · rfl
        · exact congrArg ManagedSession.status hsession
        · exact congrArg ManagedSession.retryAt hsession
  exact hboth.1

/-! ## An awaited and an overtaken retry -/

def lateContext (tag : String) : Context :=
  { sampleContext tag with now := 5 * SECOND }

/-- A worker executes the item of a message and fails; the item is claimed
again when the retry is due. -/
def awaitedRetry : List Label :=
  [sampleSend [sampleMessage] 0 "b",
   .work "work_b1" (.lease "worker" 60) (some 1) 0 0,
   .claim 1 0 0] ++
    failingTurn 0 "x" ++
      [.finish 0 0 0,
       .claim 0 0 (5 * SECOND),
       .move 1 .enter,
       .turn 1 .start 0 (lateContext "c")]

def awaitedWorld : World :=
  (run (step samplePython) (World.start sampleDb) awaitedRetry).get (by decide)

theorem sample_retry_awaited : RetriesAwaited awaitedWorld.history :=
  retries_awaited sampleDb_created (by decide +kernel) (Option.some_get _).symm

/-- The second of two messages has its own item, which is claimed as soon as
the turn for the first one has failed. -/
def overtakenRetry : List Label :=
  [sampleSend [sampleMessage] 0 "b", sampleSend [sampleMessage] 0 "c", .claim 0 0 0] ++
    failingTurn 0 "x" ++
      [.claim 0 0 0,
       .move 1 .enter,
       .turn 1 .start 0 (sampleContext "d")]

theorem queued_item_overtakes_retry :
    ∃ world, run (step samplePython) (World.start sampleDb) overtakenRetry = some world ∧
      ¬ RetriesAwaited world.history := by
  have hfacts :
      (run (step samplePython) (World.start sampleDb) overtakenRetry).map
        (fun world =>
          (world.last.isStart, world.last.now, pendingRetries world.older)) =
        some (true, some 0, [5 * SECOND]) := by
    decide
  obtain ⟨world, hrun, hworld⟩ := Option.map_eq_some_iff.mp hfacts
  simp only [Prod.mk.injEq] at hworld
  obtain ⟨hstart, hnow, hpending⟩ := hworld
  refine ⟨world, hrun, ?_⟩
  intro hawaited
  have hle := hawaited.head hstart 0 hnow (5 * SECOND) (by simp [hpending])
  revert hle
  decide

end ManagedAgents
