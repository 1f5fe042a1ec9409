import ManagedAgents.SystemRuns

/-!
# Executions of work items

What one step of the system can do to one execution, and the order of its
phases: an execution never goes back, so it starts at most one turn and
commits at most one outcome.
-/

namespace ManagedAgents

open LabelledRuns

/-! ## Executions under updates of a world -/

section

variable (world : World) (id other : ExecutionId)

@[simp] theorem World.executions_push
    (writer : Writer) (read db : Db) :
    (world.push writer read db).executions = world.executions := rfl

@[simp] theorem World.executions_setGuard
    (process : ProcessId) (before after : Phase) :
    (world.setGuard process before after).executions = world.executions := by
  unfold World.setGuard
  split <;> rfl

theorem World.executions_setExecution (execution : Option Execution) :
    (world.setExecution id execution).executions other =
      if other = id then execution else world.executions other := rfl

theorem World.executions_advance
    (execution : Execution) (phase : Phase) (since : ℕ) :
    (world.advance id execution phase since).executions other =
      if other = id then some { execution with phase := phase, since := since }
      else world.executions other := rfl

@[simp] theorem World.nextExecution_setGuard
    (process : ProcessId) (before after : Phase) :
    (world.setGuard process before after).nextExecution = world.nextExecution := by
  unfold World.setGuard
  split <;> rfl

end

/-! ## What a step does to an execution -/

/-- Where an execution of the next world comes from. -/
inductive ExecutionStep (py : Python) (world : World) (label : Label)
    (next : World) (id : ExecutionId) (after : Execution) : Prop
  | same (hbefore : world.executions id = some after)
  | claimed (read : Db) (work : EnvironmentWork)
      (hid : id = world.nextExecution)
      (hnext : next.nextExecution = world.nextExecution + 1)
      (hphase : after.phase = .claimed)
      (hsince : after.since = next.history.length)
      (hread : read ∈ world.history.map Commit.db)
      (hrow : work ∈ read.work)
      (hwork : work.id = after.workId)
      (written : EnvironmentWork) (workerId : Option String) (now : Time)
      (hfound : read.workById after.workId = some work)
      (hclaim : claimWork work workerId now = .ok (some written))
      (hhistory : next.history =
        { writer := .work
          read := read
          db := world.db.writeWork work written } :: world.history)
      (index age : ℕ) (invocation : Invocation)
      (hlabel : label = .claim index age now)
      (hinvocation : world.invocations[index]? = some invocation)
      (hsnapshot : world.snapshot invocation.since age = some read)
      (hinvoked : after.workId = invocation.workId ∧ workerId = invocation.workerId)
  | moved (before : Execution) (move : Move)
      (hlabel : label = .move id move)
      (hbefore : world.executions id = some before)
      (hphase : move.phase (world.running before.process) before.phase =
        some after.phase)
      (hafter : after = { before with phase := after.phase })
  | turn (before : Execution) (kind : TurnTransaction) (age : ℕ)
      (context : Context) (read : Db) (transaction : Transaction)
      (hlabel : label = .turn id kind age context)
      (hreading : world.reading id age = some (before, read))
      (htransaction : kind.transaction before.phase = some transaction)
      (hturn : TurnStep py world id kind age context before read transaction next)

section

variable {py : Python} {world next : World} {other : ExecutionId}
  {after : Execution}

theorem claimStep_execution
    {index age : ℕ} {now : Time}
    (hstep : claimStep world index age now = some next)
    (hafter : next.executions other = some after) :
    ExecutionStep py world (.claim index age now) next other after := by
  unfold claimStep at hstep
  split at hstep
  · cases hstep
  next invocation hinvocation =>
  simp only at hstep
  split at hstep
  · cases hstep
  next read hread =>
  split at hstep
  · cases hstep
    exact ExecutionStep.same hafter
  next work hfound =>
  split at hstep
  · cases hstep
    exact ExecutionStep.same hafter
  · cases hstep
    exact ExecutionStep.same hafter
  next written hclaim =>
  cases hstep
  simp only [World.executions_setExecution] at hafter
  split at hafter
  · next hother =>
      cases hafter
      obtain ⟨hrow, hwork⟩ := Db.workById_eq_some hfound
      exact ExecutionStep.claimed read work hother rfl rfl rfl
        (World.snapshot_read_mem hread) hrow hwork written _ now hfound hclaim rfl
        index age invocation rfl hinvocation hread ⟨rfl, rfl⟩
  · exact ExecutionStep.same hafter

theorem moveStep_execution
    {id : ExecutionId} {move : Move} (hstep : moveStep world id move = some next)
    (hafter : next.executions other = some after) :
    ExecutionStep py world (.move id move) next other after := by
  unfold moveStep at hstep
  obtain ⟨before, hbefore, hmap⟩ := Option.bind_eq_some_iff.mp hstep
  obtain ⟨phase, hphase, rfl⟩ := Option.map_eq_some_iff.mp hmap
  rw [World.executions_setGuard, World.executions_advance] at hafter
  split at hafter
  · next hother =>
      cases hafter
      subst hother
      exact ExecutionStep.moved before move rfl hbefore hphase rfl
  · exact ExecutionStep.same hafter

theorem turnStep_execution
    {id : ExecutionId} {kind : TurnTransaction} {age : ℕ} {context : Context}
    (hstep : turnStep py world id kind age context = some next)
    (hafter : next.executions other = some after) :
    ExecutionStep py world (.turn id kind age context) next other after := by
  obtain ⟨before, read, transaction, hreading, htransaction, hturn⟩ :=
    turnStep_cases hstep
  by_cases hother : other = id
  · subst hother
    exact ExecutionStep.turn before kind age context read transaction rfl hreading
      htransaction hturn
  · apply ExecutionStep.same
    cases hturn with
    | stay phase hreply =>
        rw [World.executions_advance, if_neg hother] at hafter
        exact hafter
    | collided tx committed collided hreply =>
        rw [World.executions_advance, if_neg hother] at hafter
        exact hafter
    | committed tx db committed collided hreply hbody hcommit =>
        rw [World.executions_advance, if_neg hother] at hafter
        exact hafter

theorem finishStep_execution
    {id : ExecutionId} {age : ℕ} {now : Time}
    (hstep : finishStep world id age now = some next)
    (hafter : next.executions other = some after) :
    world.executions other = some after ∧ other ≠ id := by
  have hremoved : next.executions other =
      if other = id then none else world.executions other := by
    unfold finishStep at hstep
    split at hstep
    · split at hstep
      · cases hstep
      · split at hstep
        · cases hstep
          rfl
        · cases hstep
          rfl
    · cases hstep
  rw [hafter] at hremoved
  split at hremoved
  · cases hremoved
  · next hother => exact ⟨hremoved.symm, hother⟩

theorem requestStep_execution
    {process : ProcessId} {call : Request} {age : ℕ} {context : Context}
    (hstep : requestStep py world process call age context = some next) :
    next.executions = world.executions ∧
      next.nextExecution = world.nextExecution := by
  unfold requestStep at hstep
  split at hstep
  · cases hstep
  split at hstep
  · cases hstep
    exact ⟨rfl, rfl⟩
  split at hstep
  · cases hstep
    exact ⟨rfl, rfl⟩
  next committed htransact =>
  cases hstep
  obtain ⟨db, -, rfl⟩ := World.history_transact htransact
  exact ⟨rfl, rfl⟩

theorem workStep_execution
    {workId : String} {request : WorkRequest} {executor : Option ProcessId}
    {age : ℕ} {now : Time}
    (hstep : workStep py world workId request executor age now = some next) :
    next.executions = world.executions ∧
      next.nextExecution = world.nextExecution := by
  unfold workStep at hstep
  split at hstep
  · cases hstep
  split at hstep
  · cases hstep
    exact ⟨rfl, rfl⟩
  split at hstep
  · cases hstep
    exact ⟨rfl, rfl⟩
  · cases hstep
    exact ⟨rfl, rfl⟩

theorem step_execution
    {label : Label} (hstep : step py world label = some next)
    (hafter : next.executions other = some after) :
    ExecutionStep py world label next other after := by
  cases label with
  | request process call age context =>
      rw [(requestStep_execution hstep).1] at hafter
      exact ExecutionStep.same hafter
  | work workId request executor age now =>
      rw [(workStep_execution hstep).1] at hafter
      exact ExecutionStep.same hafter
  | claim index age now => exact claimStep_execution hstep hafter
  | move id move => exact moveStep_execution hstep hafter
  | turn id kind age context => exact turnStep_execution hstep hafter
  | finish id age now =>
      exact ExecutionStep.same (finishStep_execution hstep hafter).1
  | abandon id =>
      obtain ⟨execution, -, rfl⟩ := Option.map_eq_some_iff.mp hstep
      rw [World.executions_setGuard, World.executions_setExecution] at hafter
      split at hafter
      · cases hafter
      · exact ExecutionStep.same hafter
  | crash process =>
      cases hstep
      exact ExecutionStep.same (Option.filter_eq_some_iff.mp hafter).1

theorem step_nextExecution
    {label : Label} (hstep : step py world label = some next) :
    world.nextExecution ≤ next.nextExecution := by
  cases label with
  | request process call age context => exact (requestStep_execution hstep).2.ge
  | work workId request executor age now => exact (workStep_execution hstep).2.ge
  | claim index age now =>
      change claimStep world index age now = some next at hstep
      unfold claimStep at hstep
      simp only at hstep
      repeat' split at hstep
      all_goals cases hstep
      all_goals first
        | exact le_rfl
        | exact Nat.le_succ _
  | move id move =>
      obtain ⟨execution, -, hmap⟩ := Option.bind_eq_some_iff.mp hstep
      obtain ⟨phase, -, rfl⟩ := Option.map_eq_some_iff.mp hmap
      rw [World.nextExecution_setGuard]
      exact le_rfl
  | turn id kind age context =>
      obtain ⟨before, read, transaction, -, -, hturn⟩ := turnStep_cases hstep
      cases hturn with
      | stay phase hreply => exact le_rfl
      | collided tx committed collided hreply => exact le_rfl
      | committed tx db committed collided hreply hbody hcommit => exact le_rfl
  | finish id age now =>
      change finishStep world id age now = some next at hstep
      unfold finishStep at hstep
      repeat' split at hstep
      all_goals cases hstep
      all_goals exact le_rfl
  | abandon id =>
      obtain ⟨execution, -, rfl⟩ := Option.map_eq_some_iff.mp hstep
      rw [World.nextExecution_setGuard]
      exact le_rfl
  | crash process =>
      cases hstep
      exact le_rfl

end

/-- The phases to which a reply takes its execution. -/
def PhaseReply.leadsTo (reply : PhaseReply) (phase : Phase) : Prop :=
  match reply with
  | .stay next => phase = next
  | .commit _ committed collided => phase = committed ∨ phase = collided

/-- What a transaction of a turn leaves of its execution. -/
theorem TurnStep.execution
    {py : Python} {world next : World} {id : ExecutionId} {kind : TurnTransaction}
    {age : ℕ} {context : Context} {before after : Execution} {read : Db}
    {transaction : Transaction}
    (hturn : TurnStep py world id kind age context before read transaction next)
    (hafter : next.executions id = some after) :
    after.workId = before.workId ∧
      ∃ reply, kind.reply py before.phase (Tx.begin read context) = some reply ∧
        reply.leadsTo after.phase := by
  cases hturn with
  | stay phase hreply =>
      rw [World.executions_advance, if_pos rfl] at hafter
      cases hafter
      exact ⟨rfl, _, hreply, rfl⟩
  | collided tx committed collided hreply =>
      rw [World.executions_advance, if_pos rfl] at hafter
      cases hafter
      exact ⟨rfl, _, hreply, Or.inr rfl⟩
  | committed tx db committed collided hreply hbody hcommit =>
      rw [World.executions_advance, if_pos rfl] at hafter
      cases hafter
      exact ⟨rfl, _, hreply, Or.inl rfl⟩

/-! ## Numbering -/

/-- No execution has a number that is still to be given. -/
def World.Numbered (world : World) : Prop :=
  ∀ id, world.nextExecution ≤ id → world.executions id = none

theorem step_numbered
    {py : Python} {world next : World} {label : Label}
    (hworld : world.Numbered) (hstep : step py world label = some next) :
    next.Numbered := by
  intro id hid
  have hle := step_nextExecution hstep
  have hnone := hworld id (hle.trans hid)
  cases hafter : next.executions id with
  | none => rfl
  | some after =>
      exfalso
      cases step_execution hstep hafter with
      | same hbefore =>
          rw [hnone] at hbefore
          cases hbefore
      | claimed read work heq hnext =>
          rw [heq, hnext] at hid
          exact Nat.not_succ_le_self _ hid
      | moved before move _ hbefore _ _ =>
          rw [hnone] at hbefore
          cases hbefore
      | turn before kind age context read transaction _ hreading _ _ =>
          have hbefore := (World.reading_eq_some.mp hreading).1
          rw [hnone] at hbefore
          cases hbefore

/-! ## Phases are passed in order -/

def Phase.rank : Phase → ℕ
  | .claimed => 0
  | .entered => 1
  | .started => 2
  | .loaded _ => 3
  | .executed _ _ => 4
  | _ => 5

theorem Phase.rank_le (phase : Phase) : phase.rank ≤ 5 := by
  cases phase <;> simp [Phase.rank]

theorem Move.phase_rank
    {move : Move} {busy : Bool} {before after : Phase}
    (hphase : move.phase busy before = some after) :
    before.rank ≤ after.rank := by
  unfold Move.phase at hphase
  split at hphase <;> split at hphase <;> cases hphase
  · exact Nat.zero_le _
  all_goals simp [Phase.rank]

/-- A transaction of a turn takes its execution to a later phase, until the
turn is over. -/
theorem TurnTransaction.reply_rank
    {py : Python} {kind : TurnTransaction} {before : Phase} {start : Tx}
    {reply : PhaseReply} (hreply : kind.reply py before start = some reply) :
    match reply with
    | .stay phase => phase.rank = 5
    | .commit _ committed collided =>
        collided.rank = 5 ∧ before.rank ≤ committed.rank ∧
          (before.rank < 5 → before.rank < committed.rank) := by
  unfold TurnTransaction.reply at hreply
  cases kind <;> cases before
  all_goals simp only [reduceCtorEq] at hreply
  all_goals split at hreply
  all_goals cases hreply
  all_goals simp [Phase.rank]

theorem TurnTransaction.leads_rank
    {py : Python} {kind : TurnTransaction} {before after : Phase} {start : Tx}
    {reply : PhaseReply} (hreply : kind.reply py before start = some reply)
    (hleads : reply.leadsTo after) :
    before.rank ≤ after.rank ∧ (before.rank < 5 → before.rank < after.rank) := by
  have hrank := TurnTransaction.reply_rank hreply
  have hle := before.rank_le
  cases reply with
  | stay phase =>
      simp only at hrank
      obtain rfl : after = phase := hleads
      omega
  | commit tx committed collided =>
      simp only at hrank
      rcases hleads with rfl | rfl
      · exact hrank.2
      · omega

/-- How far an execution has come: nowhere before it is claimed, and to the
end when it is gone. -/
def World.rank (world : World) (id : ExecutionId) : ℕ :=
  match world.executions id with
  | some execution => execution.phase.rank
  | none => if world.nextExecution ≤ id then 0 else 5

theorem World.rank_of_execution
    {world : World} {id : ExecutionId} {execution : Execution}
    (hexecution : world.executions id = some execution) :
    world.rank id = execution.phase.rank := by
  unfold World.rank
  rw [hexecution]

theorem World.rank_le (world : World) (id : ExecutionId) : world.rank id ≤ 5 := by
  unfold World.rank
  split
  · exact Phase.rank_le _
  · split <;> decide

theorem step_rank
    {py : Python} {world next : World} {label : Label}
    (hworld : world.Numbered) (hstep : step py world label = some next)
    (id : ExecutionId) : world.rank id ≤ next.rank id := by
  cases hafter : next.executions id with
  | none =>
      by_cases hid : next.nextExecution ≤ id
      · have hnone := hworld id ((step_nextExecution hstep).trans hid)
        have hzero : world.rank id = 0 := by
          unfold World.rank
          rw [hnone]
          exact if_pos ((step_nextExecution hstep).trans hid)
        rw [hzero]
        exact Nat.zero_le _
      · have hlast : next.rank id = 5 := by
          unfold World.rank
          rw [hafter]
          exact if_neg hid
        rw [hlast]
        exact World.rank_le world id
  | some after =>
      rw [World.rank_of_execution hafter]
      cases step_execution hstep hafter with
      | same hbefore => rw [World.rank_of_execution hbefore]
      | claimed read work hid =>
          have hzero : world.rank id = 0 := by
            unfold World.rank
            rw [hworld id hid.ge]
            exact if_pos hid.ge
          rw [hzero]
          exact Nat.zero_le _
      | moved before move hlabel hbefore hphase hsame =>
          rw [World.rank_of_execution hbefore]
          exact Move.phase_rank hphase
      | turn before kind age context read transaction hlabel hreading htransaction
          hturn =>
          have hbefore := (World.reading_eq_some.mp hreading).1
          rw [World.rank_of_execution hbefore]
          obtain ⟨-, reply, hreply, hleads⟩ := hturn.execution hafter
          exact (TurnTransaction.leads_rank hreply hleads).1

end ManagedAgents
