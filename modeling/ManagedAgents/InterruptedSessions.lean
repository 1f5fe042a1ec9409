import ManagedAgents.SystemRuns

/-!
# Interrupts

An accepted interrupt leaves the session idle and interrupted.  Until new work
is sent or resumed, the state changes only when a leftover of the time before
the interrupt writes it: a queued work item whose turn still starts, or the
failure handler of a turn that was in flight.
-/

namespace ManagedAgents

open LabelledRuns SnapshotHistory

/-! ## Interrupts and releases in a history -/

/-- New work is sent without an interrupt, or the session is resumed. -/
def Commit.isRelease (commit : Commit) : Bool :=
  match commit.writer.request? with
  | some (.sendEvents _ inputs) => hasWorkStart inputs && !hasInterrupt inputs
  | some (.resumeSession _) => true
  | _ => false

def Commit.isCancelOrDelete (commit : Commit) : Bool :=
  match commit.writer.request? with
  | some .cancelSession => true
  | some .deleteSession => true
  | _ => false

/-- The newest interrupt has not been released. -/
def interruptedSince : List Commit → Bool
  | [] => false
  | commit :: older =>
      if commit.isInterrupt then true
      else if commit.isRelease then false
      else interruptedSince older

theorem interruptedSince_cons
    {commit : Commit} {older : List Commit}
    (hsince : interruptedSince (commit :: older) = true) :
    commit.isInterrupt = true ∨ interruptedSince older = true := by
  unfold interruptedSince at hsince
  split at hsince
  · next hinterrupt => exact Or.inl hinterrupt
  · split at hsince
    · cases hsince
    · exact Or.inr hsince

/-- While an interrupt holds, no commit but a cancel or a delete changes the
status or the stop reason. -/
def InterruptsHold (history : List Commit) : Prop :=
  EveryEntry (fun commit older =>
    interruptedSince older = true → commit.isCancelOrDelete = false →
      ∀ prior ∈ older.head?,
        commit.db.session.status = prior.db.session.status ∧
          commit.db.session.stopReason = prior.db.session.stopReason) history

/-! ## Leftovers -/

/-- A leftover that reads the current state and goes on to write it: the start
of a turn in a startable session, or a failure handler. -/
def LeftoverWrites (py : Python) (world : World) (attempt : Attempt) : Prop :=
  attempt.read.events = world.db.events ∧
    (attempt.isStart = true ∧
        attempt.read.session.deletedAt = none ∧
        canStartWork attempt.read.session.status attempt.read.session.stopReason =
          true ∨
      ∃ exc ∈ attempt.exception,
        handlesFailure py exc attempt.read.session.statusDetails = true)

instance (py : Python) (world : World) (attempt : Attempt) :
    Decidable (LeftoverWrites py world attempt) :=
  inferInstanceAs (Decidable (_ ∧ (_ ∧ _ ∧ _ ∨ ∃ exc ∈ attempt.exception, _)))

/-- While an interrupt holds, the step runs no leftover. -/
def NoLeftover (py : Python) (world : World) (label : Label) : Prop :=
  interruptedSince world.history = true →
    ∀ attempt ∈ world.attempt label, ¬ LeftoverWrites py world attempt

instance (py : Python) (world : World) (label : Label) :
    Decidable (NoLeftover py world label) :=
  inferInstanceAs
    (Decidable (_ → ∀ attempt ∈ world.attempt label, ¬ LeftoverWrites py world attempt))

/-! ## One commit -/

/-- The state in which an interrupt leaves the session, until it is cancelled
or deleted. -/
def InterruptSettled (session : ManagedSession) : Prop :=
  session.status = .idle ∧ session.stopReason = some .interrupted ∨
    session.status = .terminated

theorem Committed.interruptSettled
    {py : Python} {world : World} {attempt : Attempt} {tx : Tx} {db : Db}
    (hcommitted : Committed py world attempt tx db)
    (hinterrupt : (attempt.commit db).isInterrupt = true) :
    InterruptSettled db.session := by
  rcases hcommitted.spec.control_cases with ⟨hkeeps, -, -⟩ | ⟨-, -, hwrote⟩
  · rw [Attempt.isInterrupt_of_keepsControl hkeeps db] at hinterrupt
    cases hinterrupt
  · have heffect := hcommitted.spec.effect
    generalize htransaction : attempt.transaction = transaction at heffect
    cases heffect with
    | kept hkeeps _ _ =>
        rw [← htransaction] at hkeeps
        rw [Attempt.isInterrupt_of_keepsControl hkeeps db] at hinterrupt
        cases hinterrupt
    | interrupted _ _ _ hcontrol _ =>
        have hnext := hwrote.trans hcontrol
        exact Or.inl ⟨congrArg Control.status hnext,
          congrArg Control.stopReason hnext⟩
    | actionSubmitted hnone _ _ _ _ _ =>
        rw [Attempt.isInterrupt_sendEvents htransaction, hnone] at hinterrupt
        cases hinterrupt
    | _ =>
        rw [Attempt.isInterrupt_eq_false (by simp [htransaction])] at hinterrupt
        cases hinterrupt

/-- A commit on an interrupted session which is no leftover keeps the state,
or cancels or deletes the session. -/
theorem Committed.keepsInterrupted
    {py : Python} {world : World} {attempt : Attempt} {tx : Tx} {db : Db}
    (hcommitted : Committed py world attempt tx db)
    (hleftover : ¬ LeftoverWrites py world attempt)
    (hsettled : InterruptSettled world.db.session) :
    (db.session.status = world.db.session.status ∧
        db.session.stopReason = world.db.session.stopReason) ∨
      ((attempt.commit db).isCancelOrDelete = true ∧
        db.session.status = .terminated) := by
  have hspec := hcommitted.spec
  rcases hspec.control_cases with ⟨-, hcontrol, -⟩ | ⟨hne, hread, hwrote⟩
  · exact Or.inl ⟨congrArg Control.status hcontrol,
      congrArg Control.stopReason hcontrol⟩
  have hreadSettled : InterruptSettled tx.snapshot.session := by
    have hstatus := congrArg Control.status hread
    have hstopReason := congrArg Control.stopReason hread
    simp only [ManagedSession.control] at hstatus hstopReason
    unfold InterruptSettled
    rw [hstatus, hstopReason]
    exact hsettled
  have hevents := hspec.readEvents hne
  rw [hcommitted.snapshot] at hevents
  have heffect := hspec.effect
  generalize htransaction : attempt.transaction = transaction at heffect
  cases heffect with
  | kept _ hcontrol _ =>
      have hsame := hwrote.trans (hcontrol.trans hread)
      exact Or.inl ⟨congrArg Control.status hsame, congrArg Control.stopReason hsame⟩
  | interrupted _ _ hopen hcontrol _ =>
      rcases hreadSettled with ⟨hidle, hstop⟩ | hterminated
      · have hnext := hwrote.trans hcontrol
        have hstatus : world.db.session.status = .idle :=
          (congrArg Control.status hread).symm.trans hidle
        have hreason : world.db.session.stopReason = some .interrupted :=
          (congrArg Control.stopReason hread).symm.trans hstop
        left
        rw [hstatus, hreason]
        exact ⟨congrArg Control.status hnext, congrArg Control.stopReason hnext⟩
      · exact absurd hterminated hopen
  | actionSubmitted _ _ hidle hwaiting _ _ =>
      rcases hreadSettled with ⟨-, hstop⟩ | hterminated
      · rw [hstop] at hwaiting
        cases hwaiting
      · rw [hterminated] at hidle
        cases hidle
  | deleted _ _ hstatus _ _ =>
      right
      constructor
      · unfold Commit.isCancelOrDelete Attempt.commit
        rw [htransaction]
        rfl
      · exact (congrArg Control.status hwrote).trans hstatus
  | cancelled _ hcontrol _ =>
      right
      constructor
      · unfold Commit.isCancelOrDelete Attempt.commit
        rw [htransaction]
        rfl
      · exact congrArg Control.status (hwrote.trans hcontrol)
  | started hdeletedAt hcanStart _ _ =>
      rw [hcommitted.snapshot] at hdeletedAt hcanStart
      have hstart : attempt.isStart = true := by
        simp [Attempt.isStart, htransaction]
      exact absurd ⟨hevents, Or.inl ⟨hstart, hdeletedAt, hcanStart⟩⟩ hleftover
  | concluded hrunning _ _ _ _ =>
      rcases hreadSettled with ⟨hidle, -⟩ | hterminated
      · rw [hidle] at hrunning
        cases hrunning
      · rw [hterminated] at hrunning
        cases hrunning
  | @rescheduled exc _ _ _ _ _ _ =>
      have hexc : exc ∈ attempt.exception :=
        Attempt.exception_eq_some.mpr htransaction
      exact absurd ⟨hevents, Or.inr ⟨exc, hexc, hcommitted.handlesFailure hexc⟩⟩
        hleftover
  | @failed exc _ _ _ _ =>
      have hexc : exc ∈ attempt.exception :=
        Attempt.exception_eq_some.mpr htransaction
      exact absurd ⟨hevents, Or.inr ⟨exc, hexc, hcommitted.handlesFailure hexc⟩⟩
        hleftover

/-! ## Whole runs -/

/-- In every run in which no leftover writes an interrupted session, an
interrupt holds until new work is sent or the session is resumed. -/
theorem interrupts_hold
    {py : Python} {db : Db} {labels : List Label} {world : World}
    (hcreated : Created py db)
    (hleftover : AllSteps (step py) (NoLeftover py) (World.start db) labels)
    (hrun : run (step py) (World.start db) labels = some world) :
    InterruptsHold world.history := by
  have hboth : InterruptsHold world.history ∧
      (interruptedSince world.history = true →
        ∀ last ∈ world.history.head?, InterruptSettled last.db.session) := by
    refine @run_history py (NoLeftover py)
      (fun history => InterruptsHold history ∧
        (interruptedSince history = true →
          ∀ last ∈ history.head?, InterruptSettled last.db.session))
      ?start ?session ?work _ _ _ hcreated hleftover hrun
    case start =>
      intro created _
      constructor
      · refine EveryEntry.cons everyEntry_nil ?_
        intro hsince
        cases hsince
      · intro hsince
        cases hsince
    case session =>
      intro before label attempt tx next hbefore hlabel hattempt hcommitted
      have hstep : interruptedSince before.history = true →
          (next.session.status = before.db.session.status ∧
              next.session.stopReason = before.db.session.stopReason) ∨
            ((attempt.commit next).isCancelOrDelete = true ∧
              next.session.status = .terminated) := by
        intro hsince
        exact hcommitted.keepsInterrupted (hlabel hsince attempt hattempt)
          (hbefore.2 hsince before.last rfl)
      constructor
      · refine EveryEntry.cons hbefore.1 ?_
        intro hsince hchanges prior hprior
        obtain rfl : before.last = prior := by simpa [World.history] using hprior
        rcases hstep hsince with hsame | ⟨hcancel, -⟩
        · exact hsame
        · rw [hchanges] at hcancel
          cases hcancel
      · intro hsince last hlast
        obtain rfl : attempt.commit next = last := by simpa using hlast
        rcases interruptedSince_cons hsince with hinterrupt | hsince
        · exact hcommitted.interruptSettled hinterrupt
        · have hsettled := hbefore.2 hsince before.last rfl
          rcases hstep hsince with ⟨hstatus, hstopReason⟩ | ⟨-, hterminated⟩
          · change InterruptSettled next.session
            unfold InterruptSettled
            rw [hstatus, hstopReason]
            exact hsettled
          · exact Or.inr hterminated
    case work =>
      intro before read next hbefore hsession _
      constructor
      · refine EveryEntry.cons hbefore.1 ?_
        intro _ _ prior hprior
        obtain rfl : before.last = prior := by simpa [World.history] using hprior
        change next.session.status = _ ∧ next.session.stopReason = _
        rw [hsession]
        exact ⟨rfl, rfl⟩
      · intro hsince last hlast
        have hsettled := hbefore.2 hsince before.last rfl
        obtain rfl : Commit.mk Writer.work read next = last := by simpa using hlast
        change InterruptSettled next.session
        rw [hsession]
        exact hsettled
  exact hboth.1

/-! ## Runs with an interrupt -/

def sampleInterrupt : SessionEventInput where
  type := "user.interrupt"

/-- A turn is interrupted while it waits for the model, whose result then
arrives too late; another message is sent after it. -/
def lateResult : List Label :=
  sampleTurn ++
    [sampleSend [sampleInterrupt] 0 "e",
     .move 0 (.execute { finalText := "done" }),
     .turn 0 .outcome 0 (sampleContext "f"),
     .move 0 .leave,
     .finish 0 0 0,
     sampleSend [sampleMessage] 0 "g"]

def lateResultWorld : World :=
  (run (step samplePython) (World.start sampleDb) lateResult).get (by decide)

theorem interrupt_holds_against_late_result :
    InterruptsHold lateResultWorld.history :=
  interrupts_hold sampleDb_created (by decide +kernel) (Option.some_get _).symm

/-- A message is interrupted while its work item is still queued; the item
then starts a turn. -/
def queuedTurn : List Label :=
  [sampleSend [sampleMessage] 0 "b",
   sampleSend [sampleInterrupt] 0 "c",
   .claim 0 0 0,
   .move 0 .enter,
   .turn 0 .start 0 (sampleContext "d")]

/-- An interrupt does not hold in every run: a turn starts from the work item
that was queued before it. -/
theorem queued_turn_starts_after_interrupt :
    ∃ world,
      run (step samplePython) (World.start sampleDb) queuedTurn = some world ∧
        ¬ InterruptsHold world.history := by
  have hfacts :
      (run (step samplePython) (World.start sampleDb) queuedTurn).map
          (fun world =>
            (interruptedSince world.older, world.last.isCancelOrDelete,
              statuses world)) =
        some (true, false, [.running, .idle, .idle, .idle, .idle]) := by
    decide
  obtain ⟨world, hrun, hworld⟩ := Option.map_eq_some_iff.mp hfacts
  simp only [Prod.mk.injEq, statuses, World.history] at hworld
  obtain ⟨hsince, hcancel, hstatuses⟩ := hworld
  refine ⟨world, hrun, ?_⟩
  intro hhold
  cases holder : world.older with
  | nil => simp [holder] at hstatuses
  | cons prior older =>
      simp only [holder, List.map_cons, List.cons.injEq] at hstatuses
      rw [holder] at hsince
      unfold World.history at hhold
      rw [holder] at hhold
      have hkept := (hhold.head hsince hcancel prior rfl).1
      rw [hstatuses.1, hstatuses.2.1] at hkept
      cases hkept

end ManagedAgents
