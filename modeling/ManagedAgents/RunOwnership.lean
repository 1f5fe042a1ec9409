import ManagedAgents.Executions

/-!
# Runs and their owners

The start of a turn opens a run of the session; the outcome, an interrupt and
a cancel end it.  The outcome of a turn is fenced by the status alone, so it
is committed into the run which is open, whoever opened it.  It belongs to its
own turn exactly as long as no outcome meets a run that another turn opened.
-/

namespace ManagedAgents

open LabelledRuns SnapshotHistory

/-! ## Owners in a history -/

def Commit.endsRun (commit : Commit) : Bool :=
  commit.isOutcome || commit.isInterrupt || commit.isCancel

/-- The turn that opened the run which is still open. -/
def runOwner : List Commit → Option ExecutionId
  | [] => none
  | commit :: older =>
      if commit.isStart then commit.author
      else if commit.endsRun then none
      else runOwner older

/-- The turn that started last. -/
def lastStarter : List Commit → Option ExecutionId
  | [] => none
  | commit :: older =>
      if commit.isStart then commit.author else lastStarter older

def statusIn (history : List Commit) : Option SessionStatus :=
  history.head?.map fun commit => commit.db.session.status

/-- An outcome is committed on a running session, in the run of its turn. -/
def OutcomesOwned (history : List Commit) : Prop :=
  EveryEntry (fun commit older =>
    commit.isOutcome = true →
      commit.author.isSome = true ∧ statusIn older = some .running ∧
        runOwner older = commit.author) history

def startsOf (history : List Commit) (id : ExecutionId) : List Commit :=
  history.filter fun commit => commit.isStart && commit.author = some id

def outcomesOf (history : List Commit) (id : ExecutionId) : List Commit :=
  history.filter fun commit => commit.isOutcome && commit.author = some id

structure RunsOwned (history : List Commit) : Prop where
  outcomes : OutcomesOwned history
  startedOnce : ∀ id, (startsOf history id).length ≤ 1
  concludedOnce : ∀ id, (outcomesOf history id).length ≤ 1

/-! ## Late outcomes -/

def Attempt.outcome (attempt : Attempt) :
    Option (List SessionEvent × RuntimeResult) :=
  match attempt.transaction with
  | .outcome history result => some (history, result)
  | _ => none

/-- An outcome that read the current, running session and will be recorded,
while the turn that started last is another one. -/
def LateOutcome (py : Python) (world : World) (attempt : Attempt) : Prop :=
  ∃ outcome ∈ attempt.outcome,
    attempt.read.events = world.db.events ∧
    attempt.read.session.status = .running ∧
    isWaitingForAction attempt.read.session.stopReason = false ∧
    recordsResult py outcome.1 outcome.2 = true ∧
    lastStarter world.history ≠ attempt.author

instance (py : Python) (world : World) (attempt : Attempt) :
    Decidable (LateOutcome py world attempt) :=
  inferInstanceAs (Decidable (∃ outcome ∈ attempt.outcome, _))

def NoLateOutcome (py : Python) (world : World) (label : Label) : Prop :=
  ∀ attempt ∈ world.attempt label, ¬ LateOutcome py world attempt

instance (py : Python) (world : World) (label : Label) :
    Decidable (NoLateOutcome py world label) :=
  inferInstanceAs (Decidable (∀ attempt ∈ world.attempt label, _))

/-! ## One commit -/

section

variable {attempt : Attempt}

theorem Attempt.endsRun_of_keepsControl
    (hkeeps : attempt.transaction.keepsControl) (db : Db) :
    (attempt.commit db).isStart = false ∧ (attempt.commit db).endsRun = false := by
  have hinterrupt := Attempt.isInterrupt_of_keepsControl hkeeps db
  unfold Commit.endsRun
  rw [hinterrupt]
  unfold Commit.isStart Commit.isOutcome Commit.isCancel Commit.transaction
    Attempt.commit
  generalize attempt.transaction = transaction at hkeeps
  cases transaction with
  | request call =>
      cases call with
      | cancelSession => cases hkeeps
      | _ => exact ⟨rfl, rfl⟩
  | load rows => exact ⟨rfl, rfl⟩
  | start => cases hkeeps
  | outcome history result => cases hkeeps
  | failure exc => cases hkeeps

theorem runOwner_cons_of_keepsControl
    (hkeeps : attempt.transaction.keepsControl) (db : Db) (older : List Commit) :
    runOwner (attempt.commit db :: older) = runOwner older ∧
      lastStarter (attempt.commit db :: older) = lastStarter older := by
  obtain ⟨hstart, hends⟩ := Attempt.endsRun_of_keepsControl hkeeps db
  rw [runOwner, lastStarter, hstart, hends]
  exact ⟨rfl, rfl⟩

end

/-- Only the start of a turn makes a session running. -/
theorem Effect.running
    {py : Python} {before after : ManagedSession}
    {appended : List SessionEvent} {transaction : Transaction}
    (heffect : Effect py before after appended transaction)
    (hrunning : after.status = .running) :
    (transaction.keepsControl ∧ after.control = before.control) ∨
      transaction = .start := by
  cases heffect with
  | kept hkeeps hcontrol _ => exact Or.inl ⟨hkeeps, hcontrol⟩
  | started _ _ _ _ => exact Or.inr rfl
  | deleted _ _ hterminated _ _ =>
      rw [hrunning] at hterminated
      cases hterminated
  | interrupted _ _ _ hcontrol _ | actionSubmitted _ _ _ _ hcontrol _
  | cancelled _ hcontrol _ | concluded _ _ _ hcontrol _
  | rescheduled _ _ _ hcontrol _ | failed _ hcontrol _ =>
      have hstatus := congrArg Control.status hcontrol
      rw [show after.control.status = .running from hrunning] at hstatus
      cases hstatus

/-- While the session is running, the run of the turn that started last is
open. -/
def OpenRun (history : List Commit) : Prop :=
  statusIn history = some .running → runOwner history = lastStarter history

theorem Committed.openRun
    {py : Python} {world : World} {attempt : Attempt} {tx : Tx} {db : Db}
    (hcommitted : Committed py world attempt tx db)
    (hopen : OpenRun world.history) :
    OpenRun (attempt.commit db :: world.history) := by
  intro hrunning
  have hstatus : db.session.status = .running := Option.some.inj hrunning
  have hkept : attempt.transaction.keepsControl →
      db.session.control = world.db.session.control →
      runOwner (attempt.commit db :: world.history) =
        lastStarter (attempt.commit db :: world.history) := by
    intro hkeeps hcontrol
    obtain ⟨howner, hstarter⟩ :=
      runOwner_cons_of_keepsControl hkeeps db world.history
    have hsame : db.session.status = world.db.session.status :=
      congrArg Control.status hcontrol
    rw [howner, hstarter]
    apply hopen
    change some world.db.session.status = some .running
    rw [← hsame, hstatus]
  rcases hcommitted.spec.control_cases with
    ⟨hkeeps, hcontrol, -⟩ | ⟨-, hread, hwrote⟩
  · exact hkept hkeeps hcontrol
  have hwritten : tx.session.status = .running := by
    rw [← hstatus]
    exact (congrArg Control.status hwrote).symm
  rcases hcommitted.spec.effect.running hwritten with ⟨hkeeps, hcontrol⟩ | hstart
  · exact hkept hkeeps (hwrote.trans (hcontrol.trans hread))
  · have hisStart : (attempt.commit db).isStart = true := by
      rw [Attempt.isStart_commit]
      simp [Attempt.isStart, hstart]
    rw [runOwner, lastStarter, if_pos hisStart, if_pos hisStart]

theorem Attempt.outcome_of_isOutcome
    {attempt : Attempt} {db : Db}
    (houtcome : (attempt.commit db).isOutcome = true) :
    ∃ history result, attempt.transaction = .outcome history result := by
  unfold Commit.isOutcome Commit.transaction Attempt.commit at houtcome
  cases htransaction : attempt.transaction with
  | outcome history result => exact ⟨history, result, rfl⟩
  | _ =>
      rw [htransaction] at houtcome
      cases houtcome

/-- An outcome that is not late is committed on a running session, in the run
of its own turn. -/
theorem Committed.outcome_owned
    {py : Python} {world : World} {attempt : Attempt} {tx : Tx} {db : Db}
    (hcommitted : Committed py world attempt tx db)
    (hopen : OpenRun world.history)
    (hlate : ¬ LateOutcome py world attempt)
    (houtcome : (attempt.commit db).isOutcome = true) :
    statusIn world.history = some .running ∧
      runOwner world.history = attempt.author := by
  obtain ⟨history, result, htransaction⟩ := Attempt.outcome_of_isOutcome houtcome
  have hrecords : recordsResult py history result = true := by
    have hbody := hcommitted.body
    rw [htransaction] at hbody
    exact commitOutcome_recordsResult (TurnReply.commit?_eq_some.mp hbody)
  have heffect := hcommitted.spec.effect
  have hcases := hcommitted.spec.control_cases
  rw [htransaction] at heffect hcases
  cases heffect with
  | kept hkeeps _ _ => cases hkeeps
  | concluded hrunning hwaiting _ _ hannounces =>
      have hevents := hcommitted.spec.readEvents hannounces.ne_nil
      have hcontrol :=
        ManagedSession.control_of_fenced
          (hcommitted.spec.readFenced hannounces.ne_nil)
      have hstatus : statusIn world.history = some .running := by
        change some world.db.session.status = some .running
        rw [← hrunning]
        exact congrArg some (congrArg Control.status hcontrol).symm
      rw [hcommitted.snapshot] at hrunning hwaiting hevents
      refine ⟨hstatus, ?_⟩
      rw [hopen hstatus]
      by_contra hother
      apply hlate
      refine ⟨(history, result), ?_, hevents, hrunning, hwaiting, hrecords, hother⟩
      simp [Attempt.outcome, htransaction]

/-! ## One start and one outcome for each turn -/

/-- The phase in which an execution commits the transaction. -/
def Transaction.rank : Transaction → Option ℕ
  | .request _ => none
  | .start => some 1
  | .load _ => some 2
  | .outcome _ _ => some 4
  | .failure _ => some 5

theorem TurnTransaction.transaction_rank
    {kind : TurnTransaction} {phase : Phase} {transaction : Transaction}
    (htransaction : kind.transaction phase = some transaction) :
    transaction.rank = some phase.rank := by
  cases kind <;> cases phase <;> cases htransaction <;> rfl

/-- The commits of an execution in one of its phases. -/
def commitsAt (history : List Commit) (id : ExecutionId) (rank : ℕ) :
    List Commit :=
  history.filter fun commit =>
    commit.author = some id ∧ commit.transaction.bind Transaction.rank = some rank

theorem startsOf_eq_commitsAt (history : List Commit) (id : ExecutionId) :
    startsOf history id = commitsAt history id 1 := by
  unfold startsOf commitsAt
  apply List.filter_congr
  intro commit _
  unfold Commit.isStart
  cases htransaction : commit.transaction with
  | none => simp
  | some transaction => cases transaction <;> simp [Transaction.rank]

theorem outcomesOf_eq_commitsAt (history : List Commit) (id : ExecutionId) :
    outcomesOf history id = commitsAt history id 4 := by
  unfold outcomesOf commitsAt
  apply List.filter_congr
  intro commit _
  unfold Commit.isOutcome
  cases htransaction : commit.transaction with
  | none => simp
  | some transaction => cases transaction <;> simp [Transaction.rank]

/-- A commit of a phase takes its execution past that phase. -/
theorem step_commitsAt
    {py : Python} {world next : World} {label : Label} {rank : ℕ}
    (hrank : rank < 5) (hstep : step py world label = some next)
    (id : ExecutionId) :
    commitsAt next.history id rank = commitsAt world.history id rank ∨
      ∃ commit,
        commitsAt next.history id rank = commit :: commitsAt world.history id rank ∧
        world.rank id = rank ∧ rank < next.rank id := by
  cases step_history hstep with
  | silent hhistory =>
      left
      rw [hhistory]
  | work read work written hread hrow hwrite hhistory =>
      left
      rw [hhistory]
      exact List.filter_cons_of_neg (by simp [Commit.author])
  | session attempt tx db hattempt hbody hcommit hhistory =>
      by_cases hcounts :
          attempt.author = some id ∧ attempt.transaction.rank = some rank
      · right
        refine ⟨attempt.commit db, ?_, ?_⟩
        · rw [hhistory]
          apply List.filter_cons_of_pos
          exact decide_eq_true hcounts
        · obtain ⟨hauthor, hphase⟩ := hcounts
          cases label with
          | turn other kind age context =>
              obtain ⟨before, read, transaction, hreading, htransaction, hturn⟩ :=
                turnStep_cases hstep
              rw [World.attempt_turn hreading htransaction] at hattempt
              cases hattempt
              obtain rfl : other = id := Option.some.inj hauthor
              have hbefore : before.phase.rank = rank := by
                rw [TurnTransaction.transaction_rank htransaction] at hphase
                exact Option.some.inj hphase
              rw [World.rank_of_execution (World.reading_eq_some.mp hreading).1]
              refine ⟨hbefore, ?_⟩
              cases hturn with
              | stay phase hreply =>
                  have hlength := congrArg List.length hhistory
                  simp at hlength
              | collided tx committed collided hreply =>
                  have hlength := congrArg List.length hhistory
                  simp at hlength
              | committed tx db committed collided hreply hbody hcommit =>
                  have hadvance := (TurnTransaction.reply_rank hreply).2.2
                    (by omega)
                  rw [hbefore] at hadvance
                  rw [World.rank_of_execution (by
                    rw [World.executions_advance, if_pos rfl])]
                  exact hadvance
          | request process call age context =>
              obtain ⟨read, -, rfl⟩ := Option.map_eq_some_iff.mp hattempt
              cases hauthor
          | _ => cases hattempt
      · left
        rw [hhistory]
        apply List.filter_cons_of_neg
        exact fun hcounted => hcounts (of_decide_eq_true hcounted)

/-- No execution commits twice in one phase. -/
theorem run_commitsAt
    {py : Python} {db : Db} {labels : List Label} {world : World} {rank : ℕ}
    (hrank : rank < 5)
    (hrun : run (step py) (World.start db) labels = some world)
    (id : ExecutionId) : (commitsAt world.history id rank).length ≤ 1 := by
  have hinvariant : world.Numbered ∧
      (commitsAt world.history id rank).length ≤ 1 ∧
      (world.rank id ≤ rank → commitsAt world.history id rank = []) := by
    refine @run_invariant World Label (step py)
      (fun world => world.Numbered ∧
        (commitsAt world.history id rank).length ≤ 1 ∧
        (world.rank id ≤ rank → commitsAt world.history id rank = []))
      ?step _ _ _ ?start hrun
    case start =>
      refine ⟨fun _ _ => rfl, Nat.zero_le _, fun _ => rfl⟩
    case step =>
      intro before label after hbefore hstep
      obtain ⟨hnumbered, honce, hnone⟩ := hbefore
      refine ⟨step_numbered hnumbered hstep, ?_⟩
      have hforward := step_rank hnumbered hstep id
      rcases step_commitsAt hrank hstep id with hsame | ⟨commit, hcons, hat, hpast⟩
      · rw [hsame]
        exact ⟨honce, fun hle => hnone (hforward.trans hle)⟩
      · rw [hcons, hnone hat.le]
        exact ⟨le_rfl, fun hle => absurd hpast (not_lt.mpr hle)⟩
  exact hinvariant.2.1

/-! ## Whole runs -/

theorem World.attempt_outcome_author
    {world : World} {label : Label} {attempt : Attempt} {db : Db}
    (hattempt : world.attempt label = some attempt)
    (houtcome : (attempt.commit db).isOutcome = true) :
    attempt.author.isSome = true := by
  obtain ⟨history, result, htransaction⟩ := Attempt.outcome_of_isOutcome houtcome
  cases label with
  | turn id kind age context =>
      obtain ⟨⟨execution, read⟩, -, hmap⟩ := Option.bind_eq_some_iff.mp hattempt
      obtain ⟨transaction, -, rfl⟩ := Option.map_eq_some_iff.mp hmap
      rfl
  | request process call age context =>
      obtain ⟨read, -, rfl⟩ := Option.map_eq_some_iff.mp hattempt
      cases htransaction
  | _ => cases hattempt

/-- In every run without late outcomes, every outcome is committed into the
run which its own turn started, and each turn starts and concludes at most
one. -/
theorem outcomes_belong_to_their_runs
    {py : Python} {db : Db} {labels : List Label} {world : World}
    (hcreated : Created py db)
    (hlate : AllSteps (step py) (NoLateOutcome py) (World.start db) labels)
    (hrun : run (step py) (World.start db) labels = some world) :
    RunsOwned world.history := by
  have howned : OutcomesOwned world.history ∧ OpenRun world.history := by
    refine @run_history py (NoLateOutcome py)
      (fun history => OutcomesOwned history ∧ OpenRun history)
      ?start ?session ?work _ _ _ hcreated hlate hrun
    case start =>
      intro created hcreated
      constructor
      · refine EveryEntry.cons everyEntry_nil ?_
        intro houtcome
        cases houtcome
      · intro _
        rfl
    case session =>
      intro before label attempt tx next hbefore hlabel hattempt hcommitted
      refine ⟨EveryEntry.cons hbefore.1 ?_, hcommitted.openRun hbefore.2⟩
      intro houtcome
      have hauthor := World.attempt_outcome_author hattempt houtcome
      obtain ⟨hrunning, howner⟩ :=
        hcommitted.outcome_owned hbefore.2 (hlabel attempt hattempt) houtcome
      exact ⟨hauthor, hrunning, howner⟩
    case work =>
      intro before read next hbefore hsession _
      constructor
      · refine EveryEntry.cons hbefore.1 ?_
        intro houtcome
        cases houtcome
      · intro hrunning
        apply hbefore.2
        rw [← hrunning]
        change some before.db.session.status = some next.session.status
        rw [hsession]
  constructor
  · exact howned.1
  · intro id
    rw [startsOf_eq_commitsAt]
    exact run_commitsAt (by decide) hrun id
  · intro id
    rw [outcomesOf_eq_commitsAt]
    exact run_commitsAt (by decide) hrun id

/-! ## A run taken over by a late outcome -/

/-- A turn runs from its message to its outcome. -/
def concludedTurn : List Label :=
  sampleTurn ++
    [.move 0 (.execute { finalText := "done" }),
     .turn 0 .outcome 0 (sampleContext "e")]

def concludedWorld : World :=
  (run (step samplePython) (World.start sampleDb) concludedTurn).get (by decide)

theorem concluded_turn_owns_its_run : RunsOwned concludedWorld.history :=
  outcomes_belong_to_their_runs sampleDb_created (by decide)
    (Option.some_get _).symm

/-- The turn is interrupted, another process starts a turn for a new message,
and then the outcome of the first turn arrives. -/
def takenOverRun : List Label :=
  sampleTurn ++
    [.move 0 (.execute { finalText := "done" }),
     sampleSend [{ type := "user.interrupt" }] 0 "e",
     .request 1 (.sendEvents (some sampleEnvironment) [sampleMessage]) 0
       (sampleContext "f"),
     .claim 0 0 0,
     .move 1 .enter,
     .turn 1 .start 0 (sampleContext "g"),
     .turn 0 .outcome 0 (sampleContext "h")]

/-- An outcome does not belong to its run in every run: this one is committed
by the first turn into the run of the second. -/
theorem late_outcome_takes_over_run :
    ∃ world,
      run (step samplePython) (World.start sampleDb) takenOverRun = some world ∧
        ¬ OutcomesOwned world.history := by
  have hfacts :
      (run (step samplePython) (World.start sampleDb) takenOverRun).map
          (fun world => (world.last.isOutcome, world.last.author,
            runOwner world.older)) =
        some (true, some 0, some 1) := by
    decide
  obtain ⟨world, hrun, hworld⟩ := Option.map_eq_some_iff.mp hfacts
  simp only [Prod.mk.injEq] at hworld
  obtain ⟨houtcome, hauthor, howner⟩ := hworld
  refine ⟨world, hrun, ?_⟩
  intro howned
  have hlast := (EveryEntry.head howned houtcome).2.2
  rw [hauthor, howner] at hlast
  cases hlast

end ManagedAgents
