import ManagedAgents.ClientEvents
import ManagedAgents.WorkRows

/-!
# Archived sessions

Archiving sets a column which `send_events` checks before it accepts a batch.
Resuming a session and starting a turn do not look at it, and a batch may have
been accepted on a state from before.  An archived session stays at rest
exactly as long as none of these goes through.
-/

namespace ManagedAgents

open LabelledRuns SnapshotHistory

def Commit.isArchive (commit : Commit) : Bool :=
  match commit.writer.request? with
  | some .archiveSession => true
  | _ => false

def archivedIn (history : List Commit) : Bool :=
  history.any Commit.isArchive

/-- Once the session has been archived, no commit starts a turn or adds a work
item. -/
def ArchivedAtRest (history : List Commit) : Prop :=
  EveryEntry (fun commit older =>
    archivedIn older = true →
      commit.isStart = false ∧
        ∀ prior ∈ older.head?, commit.db.workIds = prior.db.workIds) history

/-! ## What puts a session to work -/

/-- The batch starts work or resolves all pending actions, and does not
interrupt. -/
def asksForRun (py : Python) (start : Tx) (inputs : List SessionEventInput) : Bool :=
  !hasInterrupt inputs &&
    (hasWorkStart inputs ||
      inputs.inits.any fun sent =>
        allPendingActionsResolved py (sendLoop py start {} sent).1)

/-- The checks which let a resume, a turn start or a send put a session to
work.  A start and a send append events, so they have to read the log as it
is. -/
def Transaction.Wakes (py : Python) (current : Db) (start : Tx) : Transaction → Prop
  | .start =>
      start.session.deletedAt = none ∧
        canStartWork start.session.status start.session.stopReason = true ∧
          start.snapshot.events = current.events
  | .request (.resumeSession environment) =>
      start.session.deletedAt = none ∧
        canStartWork start.session.status start.session.stopReason = true ∧
          Environment.live environment = true
  | .request (.sendEvents environment inputs) =>
      (start.session.deletedAt = none ∧ start.session.archivedAt = none ∧
        start.session.status ≠ .terminated ∧ Environment.live environment = true) ∧
          validateEventBatch py start inputs = .ok () ∧
            asksForRun py start inputs = true ∧
              start.snapshot.events = current.events
  | _ => False

instance (py : Python) (current : Db) (start : Tx) (transaction : Transaction) :
    Decidable (transaction.Wakes py current start) :=
  match transaction with
  | .start => inferInstanceAs (Decidable (_ ∧ _ ∧ _))
  | .request (.resumeSession _) => inferInstanceAs (Decidable (_ ∧ _ ∧ _))
  | .request (.sendEvents _ _) => inferInstanceAs (Decidable (_ ∧ _ ∧ _ ∧ _))
  | .load _ | .outcome _ _ | .failure _ | .request (.updateSession _ _)
  | .request .archiveSession | .request .deleteSession | .request .cancelSession
  | .request (.archiveSessionThread _ _) => inferInstanceAs (Decidable False)

/-- On a session that has been archived, the step puts nothing to work. -/
def KeepsArchived (py : Python) (world : World) (label : Label) : Prop :=
  archivedIn world.history = true → ∀ attempt ∈ world.attempt label,
    ¬ attempt.transaction.Wakes py world.db (Tx.begin attempt.read attempt.context)

instance (py : Python) (world : World) (label : Label) :
    Decidable (KeepsArchived py world label) :=
  inferInstanceAs
    (Decidable (archivedIn world.history = true → ∀ attempt ∈ world.attempt label, _))

/-! ## Transactions that put nothing to work -/

theorem sendLoop_shouldRun
    {py : Python} {tx : Tx} {flags : SendFlags} {inputs : List SessionEventInput}
    (hrun : (sendLoop py tx flags inputs).2.shouldRun = true) :
    flags.shouldRun = true ∨ hasWorkStart inputs = true ∨
      ∃ sent, sent <+: inputs ∧
        allPendingActionsResolved py (sendLoop py tx flags sent).1 = true := by
  induction inputs generalizing tx flags with
  | nil => exact Or.inl hrun
  | cons input rest ih =>
      unfold sendLoop at hrun
      simp only at hrun
      have hmore : hasWorkStart rest = true → hasWorkStart (input :: rest) = true := by
        intro hstarts
        simp only [hasWorkStart, List.any_cons, Bool.or_eq_true]
        exact Or.inr hstarts
      rcases ih hrun with hflags | hstarts | ⟨sent, hsent, hresolved⟩
      · split at hflags
        · exact Or.inl hflags
        split at hflags
        next hstart =>
          right
          left
          simp [hasWorkStart, hstart]
        split at hflags
        · right
          right
          refine ⟨[input], ?_, hflags⟩
          exact List.prefix_append [input] rest
        · exact Or.inl hflags
      · exact Or.inr (Or.inl (hmore hstarts))
      · right
        right
        refine ⟨input :: sent, ?_, hresolved⟩
        exact List.cons_prefix_cons.mpr ⟨rfl, hsent⟩

theorem asksForRun_of_flags
    {py : Python} {start : Tx} {inputs : List SessionEventInput}
    (hrun : (sendLoop py start {} inputs).2.shouldRun = true)
    (hinterrupt : (sendLoop py start {} inputs).2.shouldInterrupt = false) :
    asksForRun py start inputs = true := by
  rw [sendLoop_shouldInterrupt, Bool.false_or] at hinterrupt
  simp only [asksForRun, hinterrupt, Bool.not_false, Bool.true_and, Bool.or_eq_true]
  rcases sendLoop_shouldRun hrun with hfalse | hstarts | ⟨sent, hsent, hresolved⟩
  · cases hfalse
  · exact Or.inl hstarts
  · right
    apply List.any_eq_true.mpr
    exact ⟨sent, List.mem_inits sent inputs |>.mpr hsent, hresolved⟩

theorem Written.enqueued_eq
    {py : Python} {clientTypes : List String} {enqueues : Prop} {start tx : Tx}
    (hwritten : Written py clientTypes enqueues start tx) (hnever : ¬ enqueues) :
    tx.enqueued = start.enqueued := by
  induction hwritten with
  | refl => rfl
  | update _ update ih => exact ih
  | archived _ ih => exact ih
  | deleted _ ih => exact ih
  | server _ eventType payload ih => exact ih
  | client _ payload htype ih => exact ih
  | enqueued _ hmay trigger metadata ih => exact absurd hmay hnever

/-- A transaction which commits and may enqueue work has passed its checks. -/
theorem Transaction.wakes_of_mayEnqueue
    {py : Python} {transaction : Transaction} {read current : Db}
    {context : Context} {tx : Tx}
    (hbody : transaction.body py (Tx.begin read context) = some tx)
    (hread : tx.appended ≠ [] → read.events = current.events)
    (hmay : transaction.mayEnqueue py (Tx.begin read context)) :
    transaction.Wakes py current (Tx.begin read context) := by
  unfold Transaction.mayEnqueue at hmay
  split at hmay
  next environment =>
    have hresume : resumeSession environment (Tx.begin read context) = .ok tx :=
      Except.toOption_eq_some.mp hbody
    exact (resumeSession_ok_iff.mp hresume).1
  next environment inputs =>
    have hsend : sendEvents py environment inputs (Tx.begin read context) = .ok tx :=
      Except.toOption_eq_some.mp hbody
    obtain ⟨hopen, hvalid, -⟩ := sendEvents_ok_iff.mp hsend
    refine ⟨hopen, hvalid, asksForRun_of_flags hmay.1 hmay.2, hread ?_⟩
    cases inputs with
    | nil => cases hmay.1
    | cons input rest =>
        obtain ⟨event, hevent, -⟩ :=
          sendEvents_client_types hsend input List.mem_cons_self
        exact List.ne_nil_of_mem hevent
  next => exact hmay.elim

theorem Committed.enqueued_eq_nil
    {py : Python} {world : World} {attempt : Attempt} {tx : Tx} {db : Db}
    (hcommitted : Committed py world attempt tx db)
    (hrests : ¬ attempt.transaction.Wakes py world.db
      (Tx.begin attempt.read attempt.context)) :
    tx.enqueued = [] := by
  have hread : tx.appended ≠ [] → attempt.read.events = world.db.events := by
    rw [← hcommitted.snapshot]
    exact hcommitted.spec.readEvents
  apply (Transaction.body_written hcommitted.body).enqueued_eq
  intro hmay
  exact hrests (Transaction.wakes_of_mayEnqueue hcommitted.body hread hmay)

theorem Committed.not_isStart
    {py : Python} {world : World} {attempt : Attempt} {tx : Tx} {db : Db}
    (hcommitted : Committed py world attempt tx db)
    (hrests : ¬ attempt.transaction.Wakes py world.db
      (Tx.begin attempt.read attempt.context)) :
    (attempt.commit db).isStart = false := by
  rw [Attempt.isStart_commit]
  by_contra hstart
  rw [Bool.not_eq_false] at hstart
  obtain ⟨hdeleted, hcan, hevents⟩ := hcommitted.started hstart
  unfold Attempt.isStart at hstart
  split at hstart
  next htransaction =>
    rw [htransaction] at hrests
    exact hrests ⟨hdeleted, hcan, hevents⟩
  next => cases hstart

/-! ## Whole runs -/

/-- In every run in which nothing puts an archived session to work, no turn
starts and no work item is added after the archiving. -/
theorem archived_session_at_rest
    {py : Python} {db : Db} {labels : List Label} {world : World}
    (hcreated : Created py db)
    (hkeeps : AllSteps (step py) (KeepsArchived py) (World.start db) labels)
    (hrun : run (step py) (World.start db) labels = some world) :
    ArchivedAtRest world.history := by
  refine run_commits ?start ?session ?work hcreated hkeeps hrun
  case start =>
    intro created _
    have hnone : ArchivedAtRest [] := everyEntry_nil
    apply hnone.cons
    intro harchived
    cases harchived
  case session =>
    intro before label attempt tx next hbefore hlabel hattempt hcommitted
    apply hbefore.cons
    intro harchived
    have hrests := hlabel harchived attempt hattempt
    constructor
    · exact hcommitted.not_isStart hrests
    · intro prior hprior
      obtain rfl : before.last = prior := Option.some.inj hprior
      change next.workIds = before.db.workIds
      unfold Db.workIds
      rw [Tx.commit_work hcommitted.commit, hcommitted.enqueued_eq_nil hrests,
        List.append_nil]
  case work =>
    intro before label read work written hbefore _ _ _
    apply hbefore.cons
    intro _
    constructor
    · rfl
    · intro prior hprior
      obtain rfl : before.last = prior := Option.some.inj hprior
      exact Db.writeWork_workIds before.db work written

/-! ## Archived sessions with and without work left -/

def archive (age : ℕ) (tag : String) : Label :=
  .request 0 .archiveSession age (sampleContext tag)

/-- A message to an archived session is refused. -/
def archivedRun : List Label :=
  [archive 0 "b", sampleSend [sampleMessage] 0 "c",
   .request 0 .cancelSession 0 (sampleContext "d")]

def archivedWorld : World :=
  (run (step samplePython) (World.start sampleDb) archivedRun).get (by decide)

theorem sample_archived_session_at_rest :
    ArchivedAtRest archivedWorld.history :=
  archived_session_at_rest sampleDb_created (by decide)
    (Option.some_get _).symm

/-- The item of a message sent before the archiving is executed after it. -/
def queuedBeforeArchive : List Label :=
  [sampleSend [sampleMessage] 0 "b", archive 0 "c", .claim 0 0 0, .move 0 .enter,
   .turn 0 .start 0 (sampleContext "d")]

theorem archived_session_starts_turn :
    ∃ world, run (step samplePython) (World.start sampleDb) queuedBeforeArchive =
        some world ∧
      ¬ ArchivedAtRest world.history := by
  have hfacts :
      (run (step samplePython) (World.start sampleDb) queuedBeforeArchive).map
        (fun world => world.last.isStart && archivedIn world.older) = some true := by
    decide
  obtain ⟨world, hrun, hworld⟩ := Option.map_eq_some_iff.mp hfacts
  refine ⟨world, hrun, ?_⟩
  intro hrests
  obtain ⟨hstart, harchived⟩ := Bool.and_eq_true_iff.mp hworld
  have hlast := hrests.head harchived
  rw [hstart] at hlast
  cases hlast.1

end ManagedAgents
