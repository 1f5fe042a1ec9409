import ManagedAgents.SessionSystem

/-!
# Runs of the session system

A step of the system adds at most one commit to the history: that of a session
transaction which an execution or a request attempted, or a write to the work
queue.  A run is therefore an interleaving of transactions, and a property of
histories is proved by looking at the commits alone.
-/

namespace ManagedAgents

open SnapshotHistory LabelledRuns

/-! ## The history under updates of a world -/

@[simp] theorem World.history_push
    (world : World) (writer : Writer) (read db : Db) :
    (world.push writer read db).history =
      { writer := writer, read := read, db := db } :: world.history := rfl

@[simp] theorem World.history_setExecution
    (world : World) (id : ExecutionId) (execution : Option Execution) :
    (world.setExecution id execution).history = world.history := rfl

@[simp] theorem World.history_setRunning
    (world : World) (process : ProcessId) (value : Bool) :
    (world.setRunning process value).history = world.history := rfl

@[simp] theorem World.history_setGuard
    (world : World) (process : ProcessId) (before after : Phase) :
    (world.setGuard process before after).history = world.history := by
  unfold World.setGuard
  split <;> rfl

@[simp] theorem World.history_advance
    (world : World) (id : ExecutionId) (execution : Execution) (phase : Phase)
    (since : ℕ) :
    (world.advance id execution phase since).history = world.history := rfl

@[simp] theorem World.history_start (db : Db) :
    (World.start db).history = [{ writer := .created, read := db, db := db }] :=
  rfl

theorem World.history_transact
    {world next : World} {author : Option ExecutionId}
    {transaction : Transaction} {context : Context} {read : Db} {tx : Tx}
    (htransact : world.transact author transaction context read tx = some next) :
    ∃ db, tx.commit world.db = some db ∧
      next = world.push (.session author transaction context) read db := by
  obtain ⟨db, hcommit, rfl⟩ := Option.map_eq_some_iff.mp htransact
  exact ⟨db, hcommit, rfl⟩

theorem World.snapshot_mem
    {world : World} {since age : ℕ} {read : Db}
    (hsnapshot : world.snapshot since age = some read) :
    ∃ commit ∈ world.history, commit.db = read := by
  unfold World.snapshot at hsnapshot
  split at hsnapshot
  · obtain ⟨commit, hget, rfl⟩ := Option.map_eq_some_iff.mp hsnapshot
    exact ⟨commit, List.mem_of_getElem? hget, rfl⟩
  · cases hsnapshot

theorem World.reading_eq_some
    {world : World} {id : ExecutionId} {age : ℕ} {execution : Execution}
    {read : Db} :
    world.reading id age = some (execution, read) ↔
      world.executions id = some execution ∧
        world.snapshot execution.since age = some read := by
  unfold World.reading
  constructor
  · intro hreading
    obtain ⟨found, hfound, hmap⟩ := Option.bind_eq_some_iff.mp hreading
    obtain ⟨state, hstate, heq⟩ := Option.map_eq_some_iff.mp hmap
    cases heq
    exact ⟨hfound, hstate⟩
  · rintro ⟨hexecution, hread⟩
    rw [hexecution, Option.bind_some, hread]
    rfl

/-! ## What a step does to the history -/

/-- The commit that an attempt leaves in the history. -/
def Attempt.commit (attempt : Attempt) (db : Db) : Commit where
  writer := .session attempt.author attempt.transaction attempt.context
  read := attempt.read
  db := db

theorem Attempt.isStart_commit
    (attempt : Attempt) (db : Db) :
    (attempt.commit db).isStart = attempt.isStart := by
  unfold Commit.isStart Attempt.isStart Commit.transaction Attempt.commit
  cases attempt.transaction <;> rfl

/-- Where a rewritten work row comes from. -/
inductive WorkWrite (py : Python) (world : World) (label : Label) (read : Db)
    (work written : EnvironmentWork) : Prop
  | route (workId : String) (request : WorkRequest) (executor : Option ProcessId)
      (age : ℕ) (now : Time)
      (hlabel : label = .work workId request executor age now)
      (hread : world.snapshot 1 age = some read)
      (hfound : read.workById workId = some work)
      (hhandle : request.handle py now work = some written)
  | claimed (index age : ℕ) (now : Time) (invocation : Invocation)
      (hlabel : label = .claim index age now)
      (hinvocation : world.invocations[index]? = some invocation)
      (hread : world.snapshot invocation.since age = some read)
      (hfound : read.workById invocation.workId = some work)
      (hclaim : claimWork work invocation.workerId now = .ok (some written))
  | finished (id : ExecutionId) (age : ℕ) (now : Time) (execution : Execution)
      (rewrite : Db → EnvironmentWork → Time → EnvironmentWork)
      (hlabel : label = .finish id age now)
      (hreading : world.reading id age = some (execution, read))
      (hphase : execution.phase.finishedRow = some rewrite)
      (hfound : read.workById execution.workId = some work)
      (hwritten : written = rewrite read work now)

inductive HistoryStep (py : Python) (world : World) (label : Label)
    (next : World) : Prop
  | silent (hhistory : next.history = world.history)
  | session (attempt : Attempt) (tx : Tx) (db : Db)
      (hattempt : world.attempt label = some attempt)
      (hbody : attempt.transaction.body py
        (Tx.begin attempt.read attempt.context) = some tx)
      (hcommit : tx.commit world.db = some db)
      (hhistory : next.history = attempt.commit db :: world.history)
  | work (read : Db) (work written : EnvironmentWork)
      (hread : read ∈ world.history.map Commit.db)
      (hrow : work ∈ read.work)
      (hwrite : WorkWrite py world label read work written)
      (hhistory : next.history =
        { writer := .work
          read := read
          db := world.db.writeWork work written } :: world.history)

theorem Db.workById_eq_some
    {db : Db} {workId : String} {work : EnvironmentWork}
    (hfound : db.workById workId = some work) :
    work ∈ db.work ∧ work.id = workId := by
  unfold Db.workById at hfound
  constructor
  · exact List.mem_of_find?_eq_some hfound
  · simpa using List.find?_some hfound

theorem World.snapshot_read_mem
    {world : World} {since age : ℕ} {read : Db}
    (hsnapshot : world.snapshot since age = some read) :
    read ∈ world.history.map Commit.db := by
  obtain ⟨commit, hcommit, heq⟩ := World.snapshot_mem hsnapshot
  exact List.mem_map.mpr ⟨commit, hcommit, heq⟩

section

variable {py : Python} {world next : World}

theorem requestStep_history
    {process : ProcessId} {call : Request} {age : ℕ} {context : Context}
    (hstep : requestStep py world process call age context = some next) :
    HistoryStep py world (.request process call age context) next := by
  unfold requestStep at hstep
  split at hstep
  · cases hstep
  next read hread =>
  split at hstep
  · cases hstep
    exact HistoryStep.silent rfl
  next tx hbody =>
  split at hstep
  · cases hstep
    exact HistoryStep.silent rfl
  next committed htransact =>
  cases hstep
  obtain ⟨db, hcommit, rfl⟩ := World.history_transact htransact
  refine HistoryStep.session ⟨none, .request call, context, read⟩ tx db ?_ hbody
    hcommit rfl
  simp [World.attempt, hread]

theorem workStep_history
    {workId : String} {request : WorkRequest} {executor : Option ProcessId}
    {age : ℕ} {now : Time}
    (hstep : workStep py world workId request executor age now = some next) :
    HistoryStep py world (.work workId request executor age now) next := by
  unfold workStep at hstep
  split at hstep
  · cases hstep
  next read hread =>
  split at hstep
  · cases hstep
    exact HistoryStep.silent rfl
  next work hfound =>
  split at hstep
  · cases hstep
    exact HistoryStep.silent rfl
  next written hhandle =>
  cases hstep
  exact HistoryStep.work read work written (World.snapshot_read_mem hread)
    (Db.workById_eq_some hfound).1
    (WorkWrite.route workId request executor age now rfl hread hfound hhandle) rfl

theorem claimStep_history
    {index age : ℕ} {now : Time}
    (hstep : claimStep world index age now = some next) :
    HistoryStep py world (.claim index age now) next := by
  unfold claimStep at hstep
  split at hstep
  · cases hstep
  next invocation hinvocation =>
  simp only at hstep
  split at hstep
  · cases hstep
  next read hread =>
  split at hstep
  · cases hstep
    exact HistoryStep.silent rfl
  next work hfound =>
  split at hstep
  · cases hstep
    exact HistoryStep.silent rfl
  · cases hstep
    exact HistoryStep.silent rfl
  next written hclaim =>
  cases hstep
  exact HistoryStep.work read work written (World.snapshot_read_mem hread)
    (Db.workById_eq_some hfound).1
    (WorkWrite.claimed index age now invocation rfl hinvocation hread hfound hclaim) rfl

theorem moveStep_history
    {id : ExecutionId} {move : Move} (hstep : moveStep world id move = some next) :
    next.history = world.history := by
  unfold moveStep at hstep
  obtain ⟨execution, -, hmap⟩ := Option.bind_eq_some_iff.mp hstep
  obtain ⟨phase, -, rfl⟩ := Option.map_eq_some_iff.mp hmap
  simp

theorem abandonStep_history
    {id : ExecutionId} (hstep : abandonStep world id = some next) :
    next.history = world.history := by
  unfold abandonStep at hstep
  obtain ⟨execution, -, rfl⟩ := Option.map_eq_some_iff.mp hstep
  simp

/-- A reply that commits ran the body of the phase's transaction. -/
theorem TurnTransaction.reply_commit
    {kind : TurnTransaction} {phase committed collided : Phase}
    {transaction : Transaction} {start tx : Tx}
    (htransaction : kind.transaction phase = some transaction)
    (hreply : kind.reply py phase start =
      some (.commit tx committed collided)) :
    transaction.body py start = some tx := by
  unfold TurnTransaction.transaction at htransaction
  unfold TurnTransaction.reply at hreply
  split at htransaction
  · cases htransaction
    simp only at hreply
    split at hreply
    · cases hreply
    · next hbody =>
        cases hreply
        exact hbody
  · cases htransaction
    simp only at hreply
    split at hreply
    · cases hreply
    · next hloaded =>
        cases hreply
        simp [Transaction.body, hloaded, Except.toOption]
  · cases htransaction
    simp only at hreply
    split at hreply
    · cases hreply
    · cases hreply
    · next houtcome =>
        cases hreply
        exact TurnReply.commit?_eq_some.mpr houtcome
  · cases htransaction
    simp only at hreply
    split at hreply
    · cases hreply
    · next hfail =>
        cases hreply
        exact Except.toOption_eq_some.mpr hfail
  · cases htransaction

/-- The three ways a transaction of a turn goes on. -/
inductive TurnStep (py : Python) (world : World) (id : ExecutionId)
    (kind : TurnTransaction) (age : ℕ) (context : Context)
    (execution : Execution) (read : Db) (transaction : Transaction) :
    World → Prop
  | stay (phase : Phase)
      (hreply : kind.reply py execution.phase (Tx.begin read context) =
        some (.stay phase)) :
      TurnStep py world id kind age context execution read transaction
        (world.advance id execution phase (world.history.length - age))
  | collided (tx : Tx) (committed collided : Phase)
      (hreply : kind.reply py execution.phase (Tx.begin read context) =
        some (.commit tx committed collided)) :
      TurnStep py world id kind age context execution read transaction
        (world.advance id execution collided world.history.length)
  | committed (tx : Tx) (db : Db) (committed collided : Phase)
      (hreply : kind.reply py execution.phase (Tx.begin read context) =
        some (.commit tx committed collided))
      (hbody : transaction.body py (Tx.begin read context) = some tx)
      (hcommit : tx.commit world.db = some db) :
      TurnStep py world id kind age context execution read transaction
        ((world.push (.session (some id) transaction context) read db).advance id
          execution committed (world.history.length + 1))

theorem turnStep_cases
    {id : ExecutionId} {kind : TurnTransaction} {age : ℕ} {context : Context}
    (hstep : turnStep py world id kind age context = some next) :
    ∃ execution read transaction,
      world.reading id age = some (execution, read) ∧
        kind.transaction execution.phase = some transaction ∧
        TurnStep py world id kind age context execution read transaction next := by
  unfold turnStep at hstep
  split at hstep
  · cases hstep
  next execution read hreading =>
  split at hstep
  · next transaction phase htransaction hreply =>
      cases hstep
      exact ⟨execution, read, transaction, hreading, htransaction,
        TurnStep.stay phase hreply⟩
  · next transaction tx committed collided htransaction hreply =>
      refine ⟨execution, read, transaction, hreading, htransaction, ?_⟩
      split at hstep
      · cases hstep
        exact TurnStep.collided tx committed collided hreply
      · next after htransact =>
          cases hstep
          obtain ⟨db, hcommit, rfl⟩ := World.history_transact htransact
          exact TurnStep.committed tx db committed collided hreply
            (TurnTransaction.reply_commit htransaction hreply) hcommit
  · cases hstep

theorem World.attempt_turn
    {id : ExecutionId} {kind : TurnTransaction} {age : ℕ} {context : Context}
    {execution : Execution} {read : Db} {transaction : Transaction}
    (hreading : world.reading id age = some (execution, read))
    (htransaction : kind.transaction execution.phase = some transaction) :
    world.attempt (.turn id kind age context) =
      some ⟨some id, transaction, context, read⟩ := by
  simp [World.attempt, hreading, htransaction]

theorem turnStep_history
    {id : ExecutionId} {kind : TurnTransaction} {age : ℕ} {context : Context}
    (hstep : turnStep py world id kind age context = some next) :
    HistoryStep py world (.turn id kind age context) next := by
  obtain ⟨execution, read, transaction, hreading, htransaction, hturn⟩ :=
    turnStep_cases hstep
  cases hturn with
  | stay phase hreply => exact HistoryStep.silent rfl
  | collided tx committed collided hreply => exact HistoryStep.silent rfl
  | committed tx db committed collided hreply hbody hcommit =>
      exact HistoryStep.session _ tx db
        (World.attempt_turn hreading htransaction) hbody hcommit rfl

theorem finishStep_history
    {id : ExecutionId} {age : ℕ} {now : Time}
    (hstep : finishStep world id age now = some next) :
    HistoryStep py world (.finish id age now) next := by
  unfold finishStep at hstep
  split at hstep
  next execution read hreading =>
    split at hstep
    · cases hstep
    next rewrite hphase =>
      split at hstep
      · cases hstep
        exact HistoryStep.silent rfl
      next work hfound =>
        cases hstep
        have hread := (World.reading_eq_some.mp hreading).2
        exact HistoryStep.work read work (rewrite read work now)
          (World.snapshot_read_mem hread) (Db.workById_eq_some hfound).1
          (WorkWrite.finished id age now execution rewrite rfl hreading hphase
            hfound rfl)
          rfl
  next => cases hstep

theorem step_history
    {label : Label} (hstep : step py world label = some next) :
    HistoryStep py world label next := by
  cases label with
  | request process call age context => exact requestStep_history hstep
  | work workId request executor age now => exact workStep_history hstep
  | claim index age now => exact claimStep_history hstep
  | move id move => exact HistoryStep.silent (moveStep_history hstep)
  | turn id kind age context => exact turnStep_history hstep
  | finish id age now => exact finishStep_history hstep
  | abandon id => exact HistoryStep.silent (abandonStep_history hstep)
  | crash process =>
      cases hstep
      exact HistoryStep.silent rfl

end

/-! ## Runs as interleavings -/

theorem World.db_mem (world : World) :
    world.db ∈ world.history.map Commit.db :=
  List.mem_map.mpr ⟨world.last, List.mem_cons_self, rfl⟩

theorem World.attempt_read_mem
    {world : World} {label : Label} {attempt : Attempt}
    (hattempt : world.attempt label = some attempt) :
    attempt.read ∈ world.history.map Commit.db := by
  have hread : ∃ since age, world.snapshot since age = some attempt.read := by
    cases label with
    | request process call age context =>
        obtain ⟨read, hsnapshot, rfl⟩ := Option.map_eq_some_iff.mp hattempt
        exact ⟨1, age, hsnapshot⟩
    | turn id kind age context =>
        obtain ⟨⟨execution, read⟩, hreading, hmap⟩ :=
          Option.bind_eq_some_iff.mp hattempt
        obtain ⟨transaction, -, rfl⟩ := Option.map_eq_some_iff.mp hmap
        exact ⟨execution.since, age, (World.reading_eq_some.mp hreading).2⟩
    | _ => cases hattempt
  obtain ⟨since, age, hsnapshot⟩ := hread
  exact World.snapshot_read_mem hsnapshot

/-- The committed states of a world form an interleaving of transactions of
the allowed kind. -/
def World.IsInterleaving (py : Python) (allowed : Transaction → Prop)
    (world : World) : Prop :=
  Interleaved (Created py) (Commits py allowed) (world.history.map Commit.db)

/-- Every transaction which the label attempts is of the allowed kind. -/
def AttemptsOnly (allowed : Transaction → Prop) (world : World)
    (label : Label) : Prop :=
  ∀ attempt ∈ world.attempt label, allowed attempt.transaction

theorem World.start_isInterleaving
    {py : Python} {allowed : Transaction → Prop} {db : Db}
    (hcreated : Created py db) :
    (World.start db).IsInterleaving py allowed :=
  Interleaved.initial hcreated

theorem step_isInterleaving
    {py : Python} {allowed : Transaction → Prop} {world next : World}
    {label : Label}
    (hworld : world.IsInterleaving py allowed)
    (hallowed : AttemptsOnly allowed world label)
    (hstep : step py world label = some next) :
    next.IsInterleaving py allowed := by
  unfold World.IsInterleaving at *
  cases step_history hstep with
  | silent hhistory =>
      rw [hhistory]
      exact hworld
  | session attempt tx db hattempt hbody hcommit hhistory =>
      rw [hhistory]
      exact hworld.commit (World.attempt_read_mem hattempt)
        (Or.inl ⟨attempt.transaction, attempt.context, tx,
          hallowed attempt hattempt, hbody, hcommit⟩)
  | work read work written hread hrow hwrite hhistory =>
      rw [hhistory]
      exact hworld.commit world.db_mem (Or.inr ⟨rfl, rfl⟩)

theorem run_isInterleaving
    {py : Python} {allowed : Transaction → Prop} {db : Db}
    {labels : List Label} {world : World}
    (hcreated : Created py db)
    (hallowed : AllSteps (step py) (AttemptsOnly allowed) (World.start db) labels)
    (hrun : run (step py) (World.start db) labels = some world) :
    world.IsInterleaving py allowed :=
  run_invariant_of_allSteps
    (fun _ _ _ hworld hlabel hstep => step_isInterleaving hworld hlabel hstep)
    (World.start_isInterleaving hcreated) hallowed hrun

theorem attemptsOnly_true (world : World) (label : Label) :
    AttemptsOnly (fun _ => True) world label :=
  fun _ _ => trivial

theorem run_wellFormed
    {py : Python} {db : Db} {labels : List Label} {world : World}
    (hcreated : Created py db)
    (hrun : run (step py) (World.start db) labels = some world) :
    WellFormed world.db := by
  have hsteps : AllSteps (step py) (fun _ _ => True) (World.start db) labels :=
    allSteps_true (World.start db) labels
  have hallowed := hsteps.mono fun world label _ => attemptsOnly_true world label
  have hworld := run_isInterleaving hcreated hallowed hrun
  exact (committed_states hworld).1 world.db world.db_mem

/-! ## Properties of histories -/

/-- The facts about an attempt that has committed on a sound history. -/
structure Committed (py : Python) (world : World) (attempt : Attempt) (tx : Tx)
    (db : Db) : Prop where
  read_wellFormed : WellFormed attempt.read
  current_wellFormed : WellFormed world.db
  earlier : Earlier attempt.read world.db
  body : attempt.transaction.body py (Tx.begin attempt.read attempt.context) =
    some tx
  commit : tx.commit world.db = some db
  snapshot : tx.snapshot = attempt.read
  spec : CommitSpec py attempt.transaction tx world.db db

theorem World.IsInterleaving.committed
    {py : Python} {world : World} {label : Label} {attempt : Attempt} {tx : Tx}
    {db : Db}
    (hworld : world.IsInterleaving py fun _ => True)
    (hattempt : world.attempt label = some attempt)
    (hbody : attempt.transaction.body py
      (Tx.begin attempt.read attempt.context) = some tx)
    (hcommit : tx.commit world.db = some db) :
    Committed py world attempt tx db := by
  obtain ⟨hwellFormed, hordered⟩ := committed_states hworld
  have hread := World.attempt_read_mem hattempt
  have hearlier : Earlier attempt.read world.db := by
    rcases List.mem_cons.mp hread with heq | hold
    · rw [heq]
      exact Earlier.refl world.db
    · exact (List.pairwise_cons.mp hordered).1 attempt.read hold
  have hreadWellFormed := hwellFormed attempt.read hread
  have hcurrentWellFormed := hwellFormed world.db world.db_mem
  have heffect := Transaction.body_effect hbody
  exact
    { read_wellFormed := hreadWellFormed
      current_wellFormed := hcurrentWellFormed
      earlier := hearlier
      body := hbody
      commit := hcommit
      snapshot := heffect.2.snapshot_eq
      spec := Transaction.commit_spec hreadWellFormed hcurrentWellFormed hearlier
        hbody hcommit }

/-! ## Interrupts among the commits -/

theorem Attempt.isInterrupt_sendEvents
    {attempt : Attempt} {environment : Option Environment}
    {inputs : List SessionEventInput} {db : Db}
    (hsend : attempt.transaction = .request (.sendEvents environment inputs)) :
    (attempt.commit db).isInterrupt = hasInterrupt inputs := by
  simp [Commit.isInterrupt, Attempt.commit, Writer.request?, hsend]

theorem Attempt.isInterrupt_eq_false
    {attempt : Attempt} {db : Db}
    (hother : ∀ environment inputs,
      attempt.transaction ≠ .request (.sendEvents environment inputs)) :
    (attempt.commit db).isInterrupt = false := by
  unfold Commit.isInterrupt Attempt.commit
  generalize attempt.transaction = transaction at hother
  cases transaction with
  | request call =>
      cases call with
      | sendEvents environment inputs => exact absurd rfl (hother environment inputs)
      | _ => rfl
  | _ => rfl

theorem Attempt.isInterrupt_of_keepsControl
    {attempt : Attempt} (hkeeps : attempt.transaction.keepsControl) (db : Db) :
    (attempt.commit db).isInterrupt = false := by
  by_cases hsend : ∃ environment inputs,
      attempt.transaction = .request (.sendEvents environment inputs)
  · obtain ⟨environment, inputs, hsend⟩ := hsend
    rw [hsend] at hkeeps
    rw [Attempt.isInterrupt_sendEvents hsend]
    exact hkeeps
  · exact Attempt.isInterrupt_eq_false fun environment inputs heq =>
      hsend ⟨environment, inputs, heq⟩

theorem Attempt.exception_eq_some
    {attempt : Attempt} {exc : PyException} :
    attempt.exception = some exc ↔ attempt.transaction = .failure exc := by
  unfold Attempt.exception
  cases attempt.transaction <;> simp

theorem Committed.handlesFailure
    {py : Python} {world : World} {attempt : Attempt} {tx : Tx} {db : Db}
    {exc : PyException} (hcommitted : Committed py world attempt tx db)
    (hexc : exc ∈ attempt.exception) :
    handlesFailure py exc attempt.read.session.statusDetails = true := by
  have hbody := hcommitted.body
  rw [Attempt.exception_eq_some.mp hexc] at hbody
  have hfail : failTurn py exc (Tx.begin attempt.read attempt.context) = .ok tx :=
    Except.toOption_eq_some.mp hbody
  have hhandles := failTurn_handlesFailure hfail
  rw [Tx.begin_session] at hhandles
  exact hhandles

/-- The checks which a turn start has passed when it commits. -/
theorem Committed.started
    {py : Python} {world : World} {attempt : Attempt} {tx : Tx} {db : Db}
    (hcommitted : Committed py world attempt tx db)
    (hstart : attempt.isStart = true) :
    attempt.read.session.deletedAt = none ∧
      canStartWork attempt.read.session.status attempt.read.session.stopReason = true ∧
        attempt.read.events = world.db.events := by
  have htransaction : attempt.transaction = .start := by
    unfold Attempt.isStart at hstart
    split at hstart
    next htransaction => exact htransaction
    next => cases hstart
  have hbody := hcommitted.body
  rw [htransaction] at hbody
  obtain ⟨⟨hdeleted, hcan⟩, htx⟩ := startTurn_eq_some_iff.mp hbody
  have happended : tx.appended ≠ [] := by
    rw [← htx]
    simp [appendEvent]
  have hevents := hcommitted.spec.readEvents happended
  rw [hcommitted.snapshot] at hevents
  exact ⟨hdeleted, hcan, hevents⟩

/-- A property of histories that holds of a created session and that the
commits of allowed steps preserve holds after every allowed run. -/
theorem run_commits
    {py : Python} {allowed : World → Label → Prop}
    {Property : List Commit → Prop}
    (hstart : ∀ db, Created py db →
      Property [{ writer := .created, read := db, db := db }])
    (hsession : ∀ world label attempt tx db, Property world.history →
      allowed world label → world.attempt label = some attempt →
      Committed py world attempt tx db →
      Property (attempt.commit db :: world.history))
    (hwork : ∀ world label read work written, Property world.history →
      allowed world label → work ∈ read.work →
      WorkWrite py world label read work written →
      Property ({ writer := .work
                  read := read
                  db := world.db.writeWork work written } :: world.history))
    {db : Db} {labels : List Label} {world : World}
    (hcreated : Created py db)
    (hallowed : AllSteps (step py) allowed (World.start db) labels)
    (hrun : run (step py) (World.start db) labels = some world) :
    Property world.history := by
  have hboth : world.IsInterleaving py (fun _ => True) ∧
      Property world.history := by
    refine @run_invariant_of_allSteps World Label (step py)
      (fun world => world.IsInterleaving py (fun _ => True) ∧
        Property world.history)
      allowed ?step _ _ _ ?start hallowed hrun
    case start =>
      exact ⟨World.start_isInterleaving hcreated, hstart db hcreated⟩
    case step =>
      intro before label after hbefore hlabel hstep
      refine ⟨step_isInterleaving hbefore.1 (attemptsOnly_true before label) hstep,
        ?_⟩
      cases step_history hstep with
      | silent hhistory =>
          rw [hhistory]
          exact hbefore.2
      | session attempt tx next hattempt hbody hcommit hhistory =>
          rw [hhistory]
          exact hsession before label attempt tx next hbefore.2 hlabel hattempt
            (hbefore.1.committed hattempt hbody hcommit)
      | work read work written hread hrow hwrite hhistory =>
          rw [hhistory]
          exact hwork before label read work written hbefore.2 hlabel hrow hwrite
  exact hboth.2

/-- The rule for properties which writes to the work queue cannot break. -/
theorem run_history
    {py : Python} {allowed : World → Label → Prop}
    {Property : List Commit → Prop}
    (hstart : ∀ db, Created py db →
      Property [{ writer := .created, read := db, db := db }])
    (hsession : ∀ world label attempt tx db, Property world.history →
      allowed world label → world.attempt label = some attempt →
      Committed py world attempt tx db →
      Property (attempt.commit db :: world.history))
    (hwork : ∀ (world : World) (read db : Db), Property world.history →
      db.session = world.db.session → db.events = world.db.events →
      Property ({ writer := .work, read := read, db := db } :: world.history))
    {db : Db} {labels : List Label} {world : World}
    (hcreated : Created py db)
    (hallowed : AllSteps (step py) allowed (World.start db) labels)
    (hrun : run (step py) (World.start db) labels = some world) :
    Property world.history := by
  apply run_commits hstart hsession _ hcreated hallowed hrun
  intro before label read work written hbefore _ _ _
  exact hwork before read _ hbefore rfl rfl

/-! ## The sample turn -/

def sampleTurnWorld : World :=
  (run (step samplePython) (World.start sampleDb) sampleTurn).get (by decide)

theorem sampleTurn_run :
    run (step samplePython) (World.start sampleDb) sampleTurn = some sampleTurnWorld :=
  (Option.some_get _).symm

end ManagedAgents
