import ManagedAgents.CommittedStates
import ManagedAgents.Library.LabelledRuns
import ManagedAgents.WorkQueue

/-!
# Processes, work items and turns around one session

The requests of clients, the worker routes and the executions of work items
by any number of processes, interleaved in any order.  An execution goes
through the phases of `execute_work_item` and of the turn inside it.  Every
transaction reads one committed state, not older than the previous step of
the same execution, and commits on top of the last one.
-/

namespace ManagedAgents

abbrev ProcessId := ℕ
abbrev ExecutionId := ℕ

/-! ## State -/

inductive Writer
  | created
  | session (author : Option ExecutionId) (transaction : Transaction)
      (context : Context)
  | work

/-- One entry of the history: the state which the writer read and the one it
left.  A load that appends nothing writes nothing; its entry marks the read. -/
structure Commit where
  writer : Writer
  read : Db
  db : Db

inductive Phase
  | claimed
  | entered
  | started
  | loaded (turn : LoadedTurn)
  | executed (turn : LoadedTurn) (result : RuntimeResult)
  | raised (exc : PyException)
  | returned
  | escaped (exc : PyException)
  | finishing
  | failing (exc : PyException)

/-- The phases during which the session is in `_running_sessions`. -/
def Phase.holdsGuard : Phase → Bool
  | .claimed | .finishing | .failing _ => false
  | _ => true

structure Execution where
  process : ProcessId
  workId : String
  phase : Phase
  since : ℕ

/-- A call of `execute_work_item` that has not begun. -/
structure Invocation where
  process : ProcessId
  workId : String
  workerId : Option String
  since : ℕ

structure World where
  last : Commit
  older : List Commit
  invocations : List Invocation
  executions : ExecutionId → Option Execution
  nextExecution : ExecutionId
  running : ProcessId → Bool

/-- The commits so far, newest first. -/
def World.history (world : World) : List Commit :=
  world.last :: world.older

def World.db (world : World) : Db := world.last.db

def World.start (db : Db) : World where
  last := { writer := .created, read := db, db := db }
  older := []
  invocations := []
  executions := fun _ => none
  nextExecution := 0
  running := fun _ => false

/-- The state that `age` commits have followed, if it is not older than the
first `since` commits. -/
def World.snapshot (world : World) (since age : ℕ) : Option Db :=
  if age + since ≤ world.history.length then
    world.history[age]?.map Commit.db
  else none

def World.push (world : World) (writer : Writer) (read db : Db) : World :=
  { world with
    last := { writer := writer, read := read, db := db }
    older := world.history }

def World.transact (world : World) (author : Option ExecutionId)
    (transaction : Transaction) (context : Context) (read : Db) (tx : Tx) :
    Option World :=
  (tx.commit world.db).map fun db =>
    world.push (.session author transaction context) read db

def World.setExecution (world : World) (id : ExecutionId)
    (execution : Option Execution) : World :=
  { world with
    executions := fun other =>
      if other = id then execution else world.executions other }

def World.setRunning (world : World) (process : ProcessId) (value : Bool) :
    World :=
  { world with
    running := fun other =>
      if other = process then value else world.running other }

/-- The execution goes on in another phase, having seen the first `since`
commits. -/
def World.advance (world : World) (id : ExecutionId) (execution : Execution)
    (phase : Phase) (since : ℕ) : World :=
  world.setExecution id (some { execution with phase := phase, since := since })

/-- An execution and the state its next transaction reads. -/
def World.reading (world : World) (id : ExecutionId) (age : ℕ) :
    Option (Execution × Db) :=
  (world.executions id).bind fun execution =>
    (world.snapshot execution.since age).map fun read => (execution, read)

/-! ## Labels -/

/-- The transactions of a turn. -/
inductive TurnTransaction
  | start
  | load (rows : TurnRows)
  | outcome
  | fail

/-- What happens to an execution between its transactions: it meets the guard
of `run_session_turn`, the model call returns, the `try` block raises, the code
outside of it raises, or the `finally` block runs. -/
inductive Move
  | enter
  | execute (result : RuntimeResult)
  | raise (exc : PyException)
  | escape (exc : PyException)
  | leave

inductive Label
  | request (process : ProcessId) (call : Request) (age : ℕ) (context : Context)
  | work (workId : String) (request : WorkRequest)
      (executor : Option ProcessId) (age : ℕ) (now : Time)
  | claim (index age : ℕ) (now : Time)
  | move (id : ExecutionId) (move : Move)
  | turn (id : ExecutionId) (kind : TurnTransaction) (age : ℕ) (context : Context)
  | finish (id : ExecutionId) (age : ℕ) (now : Time)
  | abandon (id : ExecutionId)
  | crash (process : ProcessId)

/-! ## Requests and work routes -/

/-- The request runs the work it enqueues in a background task. -/
def Request.inline : Request → Bool
  | .resumeSession environment | .sendEvents environment _ =>
      environment.any fun row => shouldExecuteInline row.config
  | _ => false

def inlineInvocations (process : ProcessId) (call : Request) (tx : Tx)
    (since : ℕ) : List Invocation :=
  if call.inline then
    tx.enqueued.map fun work =>
      { process := process, workId := work.id, workerId := none, since := since }
  else []

/-- A refused request and one whose flush meets a taken key change nothing. -/
def requestStep (py : Python) (world : World) (process : ProcessId)
    (call : Request) (age : ℕ) (context : Context) : Option World :=
  match world.snapshot 1 age with
  | none => none
  | some read =>
      match (Transaction.request call).body py (Tx.begin read context) with
      | none => some world
      | some tx =>
          match world.transact none (.request call) context read tx with
          | none => some world
          | some next =>
              some
                { next with
                  invocations := world.invocations ++
                    inlineInvocations process call tx next.history.length }

/-- The worker process goes on to execute what it leased. -/
def leaseInvocations (request : WorkRequest) (executor : Option ProcessId)
    (workId : String) (since : ℕ) : List Invocation :=
  match request, executor with
  | .lease workerId _, some process =>
      [{ process := process
         workId := workId
         workerId := some workerId
         since := since }]
  | _, _ => []

def workStep (py : Python) (world : World) (workId : String)
    (request : WorkRequest) (executor : Option ProcessId) (age : ℕ)
    (now : Time) : Option World :=
  match world.snapshot 1 age with
  | none => none
  | some read =>
      match read.workById workId with
      | none => some world
      | some work =>
          match request.handle py now work with
          | none => some world
          | some written =>
              let next := world.push .work read (world.db.writeWork work written)
              some
                { next with
                  invocations := world.invocations ++
                    leaseInvocations request executor workId next.history.length }

/-! ## Executing a work item -/

def claimStep (world : World) (index age : ℕ) (now : Time) : Option World :=
  match world.invocations[index]? with
  | none => none
  | some invocation =>
      let dropped :=
        { world with invocations := world.invocations.eraseIdx index }
      match world.snapshot invocation.since age with
      | none => none
      | some read =>
          match read.workById invocation.workId with
          | none => some dropped
          | some work =>
              match claimWork work invocation.workerId now with
              | .error _ => some dropped
              | .ok none => some dropped
              | .ok (some written) =>
                  let next :=
                    dropped.push .work read (world.db.writeWork work written)
                  some
                    { next.setExecution world.nextExecution
                        (some
                          { process := invocation.process
                            workId := invocation.workId
                            phase := .claimed
                            since := next.history.length }) with
                      nextExecution := world.nextExecution + 1 }

/-! ## Phases -/

def Move.phase (busy : Bool) (phase : Phase) : Move → Option Phase
  | .enter =>
      match phase with
      | .claimed => some (if busy then .finishing else .entered)
      | _ => none
  | .execute result =>
      match phase with
      | .loaded turn => some (.executed turn result)
      | _ => none
  | .raise exc =>
      match phase with
      | .started | .loaded _ | .executed _ _ => some (.raised exc)
      | _ => none
  | .escape exc =>
      match phase with
      | .entered | .raised _ => some (.escaped exc)
      | _ => none
  | .leave =>
      match phase with
      | .returned => some .finishing
      | .escaped exc => some (.failing exc)
      | _ => none

/-- Entering and leaving `_running_sessions`. -/
def World.setGuard (world : World) (process : ProcessId) (before after : Phase) :
    World :=
  if before.holdsGuard = after.holdsGuard then world
  else world.setRunning process after.holdsGuard

def moveStep (world : World) (id : ExecutionId) (move : Move) : Option World :=
  (world.executions id).bind fun execution =>
    (move.phase (world.running execution.process) execution.phase).map fun phase =>
      (world.advance id execution phase execution.since).setGuard
        execution.process execution.phase phase

def TurnTransaction.transaction (kind : TurnTransaction) (phase : Phase) :
    Option Transaction :=
  match kind, phase with
  | .start, .entered => some .start
  | .load rows, .started => some (.load rows)
  | .outcome, .executed turn result => some (.outcome turn.history result)
  | .fail, .raised exc => some (.failure exc)
  | _, _ => none

/-- Where a transaction of a turn takes its execution: to a phase without a
commit, or to one of two phases depending on the flush. -/
inductive PhaseReply
  | stay (phase : Phase)
  | commit (tx : Tx) (committed collided : Phase)

def TurnTransaction.reply (py : Python) (kind : TurnTransaction)
    (phase : Phase) (tx : Tx) : Option PhaseReply :=
  match kind, phase with
  | .start, .entered =>
      match startTurn py tx with
      | none => some (.stay .returned)
      | some tx => some (.commit tx .started (.escaped integrityError))
  | .load rows, .started =>
      match loadTurn py rows tx with
      | .error exc => some (.stay (.raised exc))
      | .ok (turn, tx) =>
          some (.commit tx (.loaded turn) (.raised integrityError))
  | .outcome, .executed turn result =>
      match commitOutcome py turn.history result tx with
      | .returned => some (.stay .returned)
      | .raised exc => some (.stay (.raised exc))
      | .commit tx => some (.commit tx .returned (.raised integrityError))
  | .fail, .raised exc =>
      match failTurn py exc tx with
      | .error error => some (.stay (.escaped error.toException))
      | .ok tx => some (.commit tx .returned (.escaped integrityError))
  | _, _ => none

def turnStep (py : Python) (world : World) (id : ExecutionId)
    (kind : TurnTransaction) (age : ℕ) (context : Context) : Option World :=
  match world.reading id age with
  | none => none
  | some (execution, read) =>
      match kind.transaction execution.phase,
          kind.reply py execution.phase (Tx.begin read context) with
      | some _, some (.stay phase) =>
          some (world.advance id execution phase (world.history.length - age))
      | some transaction, some (.commit tx committed collided) =>
          match world.transact (some id) transaction context read tx with
          | none => some (world.advance id execution collided world.history.length)
          | some next =>
              some (next.advance id execution committed next.history.length)
      | _, _ => none

/-- How the last transaction of an execution rewrites its work row. -/
def Phase.finishedRow (phase : Phase) :
    Option (Db → EnvironmentWork → Time → EnvironmentWork) :=
  match phase with
  | .finishing => some fun read work now => finishWork work read.session now
  | .failing exc => some fun _ work now => finishFailedWork work exc now
  | _ => none

def finishStep (world : World) (id : ExecutionId) (age : ℕ) (now : Time) :
    Option World :=
  match world.reading id age with
  | some (execution, read) =>
      match execution.phase.finishedRow with
      | none => none
      | some rewrite =>
          match read.workById execution.workId with
          | none => some (world.setExecution id none)
          | some work =>
              let written := rewrite read work now
              let next := world.push .work read (world.db.writeWork work written)
              some (next.setExecution id none)
  | none => none

/-- The task of an execution is cancelled. -/
def abandonStep (world : World) (id : ExecutionId) : Option World :=
  (world.executions id).map fun execution =>
    (world.setExecution id none).setGuard execution.process execution.phase
      .finishing

def crashStep (world : World) (process : ProcessId) : World :=
  { world with
    invocations := world.invocations.filter fun invocation =>
      invocation.process ≠ process
    executions := fun id =>
      (world.executions id).filter fun execution => execution.process ≠ process
    running := fun other =>
      if other = process then false else world.running other }

def step (py : Python) (world : World) : Label → Option World
  | .request process call age context =>
      requestStep py world process call age context
  | .work workId request executor age now =>
      workStep py world workId request executor age now
  | .claim index age now => claimStep world index age now
  | .move id move => moveStep world id move
  | .turn id kind age context => turnStep py world id kind age context
  | .finish id age now => finishStep world id age now
  | .abandon id => abandonStep world id
  | .crash process => some (crashStep world process)

/-! ## Attempts -/

/-- A session transaction about to run, with the state it reads. -/
structure Attempt where
  author : Option ExecutionId
  transaction : Transaction
  context : Context
  read : Db

def Attempt.isStart (attempt : Attempt) : Bool :=
  match attempt.transaction with
  | .start => true
  | _ => false

/-- The exception which a failure handler handles. -/
def Attempt.exception (attempt : Attempt) : Option PyException :=
  match attempt.transaction with
  | .failure exc => some exc
  | _ => none

def World.attempt (world : World) : Label → Option Attempt
  | .request _ call age context =>
      (world.snapshot 1 age).map fun read =>
        { author := none
          transaction := .request call
          context := context
          read := read }
  | .turn id kind age context =>
      (world.reading id age).bind fun (execution, read) =>
        (kind.transaction execution.phase).map fun transaction =>
          { author := some id
            transaction := transaction
            context := context
            read := read }
  | _ => none

/-! ## Kinds of commits -/

def Writer.request? : Writer → Option Request
  | .session _ (.request call) _ => some call
  | _ => none

def Commit.transaction : Commit → Option Transaction
  | { writer := .session _ transaction _, .. } => some transaction
  | _ => none

def Commit.author : Commit → Option ExecutionId
  | { writer := .session author _ _, .. } => author
  | _ => none

def Commit.isStart (commit : Commit) : Bool :=
  match commit.transaction with
  | some .start => true
  | _ => false

def Commit.isOutcome (commit : Commit) : Bool :=
  match commit.transaction with
  | some (.outcome _ _) => true
  | _ => false

def Commit.isLoad (commit : Commit) : Bool :=
  match commit.transaction with
  | some (.load _) => true
  | _ => false

def Commit.isFailure (commit : Commit) : Bool :=
  match commit.transaction with
  | some (.failure _) => true
  | _ => false

def Commit.isCancel (commit : Commit) : Bool :=
  match commit.transaction with
  | some (.request .cancelSession) => true
  | _ => false

def Commit.isInterrupt (commit : Commit) : Bool :=
  match commit.writer.request? with
  | some (.sendEvents _ inputs) => hasInterrupt inputs
  | _ => false

/-! ## A sample turn -/

def sampleSend (inputs : List SessionEventInput) (age : ℕ) (tag : String) :
    Label :=
  .request 0 (.sendEvents (some sampleEnvironment) inputs) age (sampleContext tag)

/-- A message is sent, its turn starts and loads. -/
def sampleTurn : List Label :=
  [sampleSend [sampleMessage] 0 "b",
   .claim 0 0 0,
   .move 0 .enter,
   .turn 0 .start 0 (sampleContext "c"),
   .turn 0 (.load sampleRows) 0 (sampleContext "d")]

/-- An item with its turn, up to the transaction that marks it completed. -/
def completedTurn : List Label :=
  sampleTurn ++
    [.move 0 (.execute { finalText := "done" }),
     .turn 0 .outcome 0 (sampleContext "e"),
     .move 0 .leave,
     .finish 0 0 0]

def sampleTimeout : PyException where
  className := "TimeoutError"
  message := "timed out"
  timeoutOrConnection := true

/-- The turn of a claimed execution starts, and its model call times out. -/
def failingTurn (id : ExecutionId) (tag : String) : List Label :=
  [.move id .enter,
   .turn id .start 0 (sampleContext (tag ++ "s")),
   .turn id (.load sampleRows) 0 (sampleContext (tag ++ "l")),
   .move id (.raise sampleTimeout),
   .turn id .fail 0 (sampleContext (tag ++ "f")),
   .move id .leave]

def statuses (world : World) : List SessionStatus :=
  world.history.map fun commit => commit.db.session.status

end ManagedAgents
