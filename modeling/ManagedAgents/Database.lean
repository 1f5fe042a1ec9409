import ManagedAgents.Library.SequencedLog
import ManagedAgents.SessionState

/-!
# Session rows, event rows and transactions

The database is seen from one session: its row, its event rows and the work
items that were enqueued for it.  A transaction works on a copy of the row it
read (`Tx.session`), numbers its new events from the `last_event_seq` of that
copy and is flushed column by column: an `UPDATE` names only the columns whose
value differs from the one that was read.  Two constraints guard the commit,
the primary keys and `unique(session_id, seq)`.
-/

namespace ManagedAgents

open SequencedLog

/-! ## Rows -/

structure AgentOverlay where
  tools : Option (List Json) := none
  mcpServers : Option (List Json) := none
deriving DecidableEq

structure RuntimeError where
  type : String
  message : String
  statusCode : Option ℤ
deriving DecidableEq

structure RuntimeRetry where
  attempt : ℕ
  maxAttempts : ℕ
  retryAfterSeconds : ℤ
  retryAt : Time
  error : RuntimeError
deriving DecidableEq

/-- The JSON column `status_details`, with the keys which the program writes. -/
structure StatusDetails where
  resources : List Json := []
  vaultIds : List String := []
  agent : Option AgentOverlay := none
  runtimeRetry : Option RuntimeRetry := none
  outcomeEvaluations : List Json := []
  primaryThreadArchivedAt : Option Time := none
deriving DecidableEq

structure ManagedSession where
  id : String
  agentId : String
  agentVersion : ℕ
  environmentId : String
  title : Option String := none
  status : SessionStatus := .idle
  statusDetails : StatusDetails := {}
  stopReason : Option StopReason := none
  runState : Option Dict := none
  sandboxState : Option Dict := none
  metadata : Dict := []
  lastEventSeq : ℕ := 0
  archivedAt : Option Time := none
  deletedAt : Option Time := none
deriving DecidableEq

/-- Who appended an event.  This is not a column and no code reads it; the
statements about server events need it because clients choose event types. -/
inductive EventOrigin
  | client
  | server
deriving DecidableEq

structure SessionEvent where
  id : String
  seq : ℕ
  type : String
  source : String
  payload : Dict
  createdAt : Time
  origin : EventOrigin
deriving DecidableEq

inductive WorkStatus
  | queued
  | leased
  | running
  | rescheduling
  | completed
  | error
  | stopped
deriving DecidableEq, Repr

structure Lease where
  workerId : Option String := none
  leasedAt : Option Time := none
  expiresAt : Option Time := none
deriving DecidableEq

structure WorkData where
  sessionId : String
  trigger : String
  attempt : ℕ := 0
  metadata : Dict := []
  queuedAt : Time
  startedAt : Option Time := none
  startedBy : Option String := none
  lease : Option Lease := none
  lastHeartbeatAt : Option Time := none
  lastHeartbeat : Option Dict := none
  ackedAt : Option Time := none
  ackedBy : Option String := none
  stop : Option Dict := none
  stoppedAt : Option Time := none
  error : Option (String × String) := none
  finishedAt : Option Time := none
  sessionStatus : Option SessionStatus := none
  rescheduledAt : Option Time := none
  retryAt : Option Time := none
  retryAfterSeconds : Option ℤ := none
  stopReason : Option StopReason := none
  reclaimOlderThanMs : Option ℕ := none
deriving DecidableEq

structure EnvironmentWork where
  id : String
  parentId : String
  name : String
  status : WorkStatus
  data : WorkData
deriving DecidableEq

structure Db where
  session : ManagedSession
  events : List SessionEvent
  work : List EnvironmentWork

/-! ## Event queries -/

/-- `list_events`: a page of the events after `afterSeq`, oldest first. -/
def listEvents (events : List SessionEvent) (afterSeq limit : ℕ) :
    List SessionEvent :=
  ((events.filter fun event => afterSeq < event.seq).insertionSort
    fun left right => left.seq ≤ right.seq).take limit

def eventSource (eventType : String) : String :=
  if '.' ∈ eventType.toList then
    String.ofList (eventType.toList.takeWhile fun c => c ≠ '.')
  else "system"

def defaultProcessedAt (py : Python) (now : Time) (eventType : String) : Json :=
  if eventSource eventType = "user" ∨ eventSource eventType = "system" then .null
  else .str (py.isoformat now)

def normalizePayload (py : Python) (now : Time) (eventType : String)
    (payload : Dict) : Dict :=
  Dict.set (Dict.setdefault payload "type" (.str eventType))
    "processed_at" (defaultProcessedAt py now eventType)

/-! ## Transactions -/

/-- What a transaction draws from its surroundings: the clock and the
identifiers that `uuid4` returns, in the order of the calls. -/
structure Context where
  now : Time
  uuid : ℕ → String

structure Tx where
  snapshot : Db
  context : Context
  session : ManagedSession
  appended : List SessionEvent
  enqueued : List EnvironmentWork

def Tx.begin (snapshot : Db) (context : Context) : Tx where
  snapshot := snapshot
  context := context
  session := snapshot.session
  appended := []
  enqueued := []

@[simp] theorem Tx.begin_snapshot (snapshot : Db) (context : Context) :
    (Tx.begin snapshot context).snapshot = snapshot := rfl

@[simp] theorem Tx.begin_context (snapshot : Db) (context : Context) :
    (Tx.begin snapshot context).context = context := rfl

@[simp] theorem Tx.begin_session (snapshot : Db) (context : Context) :
    (Tx.begin snapshot context).session = snapshot.session := rfl

@[simp] theorem Tx.begin_appended (snapshot : Db) (context : Context) :
    (Tx.begin snapshot context).appended = [] := rfl

@[simp] theorem Tx.begin_enqueued (snapshot : Db) (context : Context) :
    (Tx.begin snapshot context).enqueued = [] := rfl

/-- `new_id`. -/
def Tx.newId (tx : Tx) (idPrefix : String) : String :=
  idPrefix ++ "_" ++ tx.context.uuid (tx.appended.length + tx.enqueued.length)

/-- The events which a query of the transaction sees: the ones it read and,
after the flush of `append_event`, its own. -/
def Tx.events (tx : Tx) : List SessionEvent :=
  tx.snapshot.events ++ tx.appended

def Tx.newEvent (py : Python) (tx : Tx) (origin : EventOrigin)
    (eventType : String) (payload : Dict) : SessionEvent where
  id := tx.newId "evt"
  seq := tx.session.lastEventSeq + 1
  type := eventType
  source := eventSource eventType
  payload := normalizePayload py tx.context.now eventType payload
  createdAt := tx.context.now
  origin := origin

def appendEvent (py : Python) (tx : Tx) (origin : EventOrigin)
    (eventType : String) (payload : Dict) : Tx :=
  { tx with
    session :=
      { tx.session with lastEventSeq := tx.session.lastEventSeq + 1 }
    appended := tx.appended ++ [tx.newEvent py origin eventType payload] }

structure SessionUpdate where
  title : Option String := none
  metadata : Option Dict := none
  status : Option SessionStatus := none
  statusDetails : Option StatusDetails := none
  stopReason : Option StopReason := none
  runState : Option Dict := none
  sandboxState : Option Dict := none

/-- `update_session`: arguments that are `None` leave their column alone. -/
def updateSession (tx : Tx) (update : SessionUpdate) : Tx :=
  let session := tx.session
  { tx with
    session :=
      { session with
        title := update.title.or session.title
        metadata := update.metadata.getD session.metadata
        status := update.status.getD session.status
        statusDetails := update.statusDetails.getD session.statusDetails
        stopReason := update.stopReason.or session.stopReason
        runState := update.runState.or session.runState
        sandboxState := update.sandboxState.or session.sandboxState } }

/-- `archive_session` of the queries. -/
def markArchived (tx : Tx) : Tx :=
  { tx with session := { tx.session with archivedAt := some tx.context.now } }

/-- `delete_session` of the queries. -/
def markDeleted (tx : Tx) : Tx :=
  { tx with
    session :=
      { tx.session with
        deletedAt := some tx.context.now
        status := .terminated } }

def enqueueSessionRun (tx : Tx) (trigger : String) (metadata : Dict) : Tx :=
  { tx with
    enqueued := tx.enqueued ++
      [{ id := tx.newId "work"
         parentId := tx.session.environmentId
         name := "session:" ++ tx.session.id
         status := .queued
         data :=
          { sessionId := tx.session.id
            trigger := trigger
            metadata := metadata
            queuedAt := tx.context.now } }] }

/-! ## Commit -/

/-- One column of the `UPDATE`: written only where the value changed. -/
def flushColumn {α : Type} [DecidableEq α] (read written current : α) : α :=
  if written = read then current else written

def flushSession (read written current : ManagedSession) : ManagedSession :=
  { current with
    title := flushColumn read.title written.title current.title
    status := flushColumn read.status written.status current.status
    statusDetails :=
      flushColumn read.statusDetails written.statusDetails current.statusDetails
    stopReason := flushColumn read.stopReason written.stopReason current.stopReason
    runState := flushColumn read.runState written.runState current.runState
    sandboxState :=
      flushColumn read.sandboxState written.sandboxState current.sandboxState
    metadata := flushColumn read.metadata written.metadata current.metadata
    lastEventSeq :=
      flushColumn read.lastEventSeq written.lastEventSeq current.lastEventSeq
    archivedAt := flushColumn read.archivedAt written.archivedAt current.archivedAt
    deletedAt := flushColumn read.deletedAt written.deletedAt current.deletedAt }

/-- The constraints the database checks: `unique(session_id, seq)` and the
primary keys of the inserted rows. -/
def Tx.Violates (tx : Tx) (current : Db) : Prop :=
  Collides SessionEvent.seq current.events tx.appended ∨
    Collides SessionEvent.id current.events tx.appended ∨
      ¬ (tx.appended.map SessionEvent.id).Nodup ∨
        Collides EnvironmentWork.id current.work tx.enqueued

instance (tx : Tx) (current : Db) : Decidable (tx.Violates current) := by
  unfold Tx.Violates
  infer_instance

def Tx.commit (tx : Tx) (current : Db) : Option Db :=
  if tx.Violates current then none
  else some
    { session := flushSession tx.snapshot.session tx.session current.session
      events := current.events ++ tx.appended
      work := current.work ++ tx.enqueued }

end ManagedAgents
