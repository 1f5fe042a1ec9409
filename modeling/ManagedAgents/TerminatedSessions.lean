import ManagedAgents.SystemRuns

/-!
# Terminated sessions

The outcome of a turn is committed only while its session is running, but the
failure handler writes the status unconditionally.  A terminated session stays
terminated exactly as long as no handler reschedules it.
-/

namespace ManagedAgents

open LabelledRuns

/-- Once terminated, the session is terminated in all later commits. -/
def StaysTerminated (history : List Commit) : Prop :=
  history.Pairwise fun newer older =>
    older.db.session.status = .terminated → newer.db.session.status = .terminated

/-- A failure handler that read the current, terminated session and has a
retry left for a transient exception. -/
def RevivesTerminated (py : Python) (world : World) (attempt : Attempt) : Prop :=
  ∃ exc ∈ attempt.exception,
    attempt.read.session.status = .terminated ∧
    attempt.read.events = world.db.events ∧
    isTransientRuntimeError py exc = .ok true ∧
    nextAttempt attempt.read.session.statusDetails < MAX_TRANSIENT_RETRY_ATTEMPTS ∧
    handlesFailure py exc attempt.read.session.statusDetails = true

instance (py : Python) (world : World) (attempt : Attempt) :
    Decidable (RevivesTerminated py world attempt) :=
  inferInstanceAs (Decidable (∃ exc ∈ attempt.exception, _))

def KeepsTerminated (py : Python) (world : World) (label : Label) : Prop :=
  ∀ attempt ∈ world.attempt label, ¬ RevivesTerminated py world attempt

instance (py : Python) (world : World) (label : Label) :
    Decidable (KeepsTerminated py world label) :=
  inferInstanceAs (Decidable (∀ attempt ∈ world.attempt label, _))

/-- Every other commit on a terminated session leaves it terminated. -/
theorem Committed.terminated
    {py : Python} {world : World} {attempt : Attempt} {tx : Tx} {db : Db}
    (hcommitted : Committed py world attempt tx db)
    (hkeeps : ¬ RevivesTerminated py world attempt)
    (hterminated : world.db.session.status = .terminated) :
    db.session.status = .terminated := by
  have hspec := hcommitted.spec
  rcases hspec.control_cases with ⟨-, hcontrol, -⟩ | ⟨hne, hread, hwrote⟩
  · have hstatus : db.session.status = world.db.session.status :=
      congrArg Control.status hcontrol
    rw [hstatus, hterminated]
  · have hreadStatus : tx.snapshot.session.status = .terminated :=
      (congrArg Control.status hread).trans hterminated
    have hwroteStatus : db.session.status = tx.session.status :=
      congrArg Control.status hwrote
    rw [hwroteStatus]
    have heffect := hspec.effect
    generalize htransaction : attempt.transaction = transaction at heffect
    cases heffect with
    | kept _ hcontrol _ =>
        have hstatus : tx.session.status = tx.snapshot.session.status :=
          congrArg Control.status hcontrol
        rw [hstatus, hreadStatus]
    | interrupted _ _ hopen _ _ => exact absurd hreadStatus hopen
    | actionSubmitted _ _ hidle _ _ _ =>
        rw [hreadStatus] at hidle
        cases hidle
    | deleted _ _ hstatus _ _ => exact hstatus
    | cancelled _ hcontrol _ => exact congrArg Control.status hcontrol
    | started _ hcanStart _ _ =>
        rw [canStartWork_iff, hreadStatus] at hcanStart
        simp at hcanStart
    | concluded hrunning _ _ _ _ =>
        rw [hreadStatus] at hrunning
        cases hrunning
    | @rescheduled exc reason htransient hattempt _ _ _ =>
        have hevents := hspec.readEvents hne
        rw [hcommitted.snapshot] at hevents hreadStatus hattempt
        have hexc : exc ∈ attempt.exception := by
          simp [Attempt.exception, htransaction]
        exact absurd ⟨exc, hexc, hreadStatus, hevents, htransient, hattempt,
          hcommitted.handlesFailure hexc⟩ hkeeps
    | failed _ hcontrol _ => exact congrArg Control.status hcontrol

theorem StaysTerminated.cons
    {world : World} {commit : Commit}
    (hstays : StaysTerminated world.history)
    (hcommit : world.db.session.status = .terminated →
      commit.db.session.status = .terminated) :
    StaysTerminated (commit :: world.history) := by
  refine List.pairwise_cons.mpr ⟨?_, hstays⟩
  intro older holder hterminated
  apply hcommit
  rcases List.mem_cons.mp holder with rfl | hold
  · exact hterminated
  · exact (List.pairwise_cons.mp hstays).1 older hold hterminated

/-- In every run in which no failure handler reschedules a terminated session,
a terminated session stays terminated. -/
theorem terminated_stays_terminated
    {py : Python} {db : Db} {labels : List Label} {world : World}
    (hcreated : Created py db)
    (hkeeps : AllSteps (step py) (KeepsTerminated py) (World.start db) labels)
    (hrun : run (step py) (World.start db) labels = some world) :
    StaysTerminated world.history := by
  refine run_history ?start ?session ?work hcreated hkeeps hrun
  case start =>
    intro created _
    exact List.pairwise_singleton _ _
  case session =>
    intro before label attempt tx next hbefore hlabel hattempt hcommitted
    exact hbefore.cons (hcommitted.terminated (hlabel attempt hattempt))
  case work =>
    intro before read next hbefore hsession _
    apply hbefore.cons
    intro hterminated
    change next.session.status = .terminated
    rw [hsession, hterminated]

/-! ## A late transient failure -/

/-- The session is cancelled while the turn waits for the model, which then
raises. -/
def cancelledTurn (exc : PyException) : List Label :=
  sampleTurn ++
    [.request 0 .cancelSession 0 (sampleContext "e"),
     .move 0 (.raise exc),
     .turn 0 .fail 0 (sampleContext "f")]

def failedWorld : World :=
  (run (step samplePython) (World.start sampleDb)
    (cancelledTurn (runtimeError "no model"))).get (by decide)

theorem failed_session_stays_terminated :
    StaysTerminated failedWorld.history :=
  terminated_stays_terminated sampleDb_created (by decide +kernel)
    (Option.some_get _).symm

/-- A terminated session does not stay terminated in every run: in this one
the late failure brings it back to rescheduling. -/
theorem cancelled_session_rescheduled :
    ∃ world,
      run (step samplePython) (World.start sampleDb) (cancelledTurn sampleTimeout) =
          some world ∧
        ¬ StaysTerminated world.history := by
  have hstatuses :
      (run (step samplePython) (World.start sampleDb)
          (cancelledTurn sampleTimeout)).map statuses =
        some [.rescheduling, .terminated, .running, .running, .idle, .idle, .idle] := by
    decide
  obtain ⟨world, hrun, hworld⟩ := Option.map_eq_some_iff.mp hstatuses
  refine ⟨world, hrun, ?_⟩
  intro hstays
  have hpairs : (statuses world).Pairwise fun newer older =>
      older = .terminated → newer = .terminated :=
    List.pairwise_map.mpr hstays
  rw [hworld] at hpairs
  revert hpairs
  decide

end ManagedAgents
