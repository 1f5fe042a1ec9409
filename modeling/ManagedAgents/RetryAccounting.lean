import ManagedAgents.DetailsWriters
import ManagedAgents.InterruptedSessions
import ManagedAgents.TerminatedSessions

/-!
# Retry accounting

The number of transient failures since the last outcome is kept in the status
details, which other transactions rewrite as well.  While transactions read the
current state, the counter is exact, and the third failure terminates the
session.  A turn that is still in flight then may fail once more.
-/

namespace ManagedAgents

open LabelledRuns SnapshotHistory

/-! ## Counting -/

/-- `runtime_retry.attempt`, zero when it is absent. -/
def retryAttempt (details : StatusDetails) : ℕ :=
  (details.runtimeRetry.map RuntimeRetry.attempt).getD 0

theorem nextAttempt_eq (details : StatusDetails) :
    nextAttempt details = retryAttempt details + 1 := by
  unfold nextAttempt retryAttempt
  cases details.runtimeRetry with
  | none => rfl
  | some retry => rfl

def Transaction.isTransientFailure (py : Python) : Transaction → Bool
  | .failure exc => isTransient py exc
  | _ => false

def Commit.isTransientFailure (py : Python) (commit : Commit) : Bool :=
  commit.transaction.any fun transaction => transaction.isTransientFailure py

/-- The transient failures since the last outcome. -/
def transientFailures (py : Python) : List Commit → ℕ
  | [] => 0
  | commit :: older =>
      if commit.isOutcome then 0
      else if commit.isTransientFailure py then transientFailures py older + 1
      else transientFailures py older

/-- What the state of the session says about the transient failures. -/
structure RetryAccount (py : Python) (commit : Commit) (older : List Commit) : Prop where
  counted : retryAttempt commit.db.session.statusDetails =
    transientFailures py (commit :: older)
  status : commit.isTransientFailure py = true →
    commit.db.session.status =
      if transientFailures py (commit :: older) < MAX_TRANSIENT_RETRY_ATTEMPTS then
        .rescheduling
      else .terminated
  delay : commit.isTransientFailure py = true →
    ∃ retry ∈ commit.db.session.statusDetails.runtimeRetry,
      1 ≤ retry.retryAfterSeconds ∧ retry.retryAfterSeconds ≤ 300
  starts : commit.isStart = true →
    transientFailures py older < MAX_TRANSIENT_RETRY_ATTEMPTS

def RetriesAccounted (py : Python) (history : List Commit) : Prop :=
  EveryEntry (RetryAccount py) history

/-- No more than the allowed number of transient failures follow each other. -/
def RetriesCapped (py : Python) (history : List Commit) : Prop :=
  EveryEntry (fun commit older =>
    transientFailures py (commit :: older) ≤ MAX_TRANSIENT_RETRY_ATTEMPTS) history

/-! ## Steps -/

/-- The transactions of the step read the current state of the session. -/
def Serialised (world : World) (label : Label) : Prop :=
  ∀ attempt ∈ world.attempt label,
    attempt.read.session = world.db.session ∧ attempt.read.events = world.db.events

instance (world : World) (label : Label) : Decidable (Serialised world label) := by
  unfold Serialised
  infer_instance

/-- A transient failure is recorded in a session whose retries are used up and
which is terminated. -/
def FailsPastCap (py : Python) (attempt : Attempt) : Prop :=
  ∃ exc ∈ attempt.exception,
    isTransient py exc = true ∧
      handlesFailure py exc attempt.read.session.statusDetails = true ∧
        attempt.read.session.status = .terminated ∧
          MAX_TRANSIENT_RETRY_ATTEMPTS ≤ retryAttempt attempt.read.session.statusDetails

instance (py : Python) (attempt : Attempt) : Decidable (FailsPastCap py attempt) := by
  unfold FailsPastCap
  infer_instance

def NoFailurePastCap (py : Python) (world : World) (label : Label) : Prop :=
  ∀ attempt ∈ world.attempt label, ¬ FailsPastCap py attempt

instance (py : Python) (world : World) (label : Label) :
    Decidable (NoFailurePastCap py world label) := by
  unfold NoFailurePastCap
  infer_instance

/-! ## What a transaction makes of the counter -/

theorem mergeSessionAgentOverlay_eq
    {py : Python} {details merged : StatusDetails} {version : Option AgentVersion}
    {update : Dict}
    (hmerged : mergeSessionAgentOverlay py details version update = .ok merged) :
    ∃ overlay, merged = { details with agent := overlay } := by
  unfold mergeSessionAgentOverlay at hmerged
  simp only [bind, Except.bind, pure, Except.pure, throw, throwThe,
    MonadExceptOf.throw] at hmerged
  repeat' split at hmerged
  all_goals cases hmerged
  all_goals exact ⟨_, rfl⟩

/-- The details of an update come from the merge of its overlay. -/
theorem sessionUpdateOf_merged
    {py : Python} {session : ManagedSession} {version : Option AgentVersion}
    {body : SessionUpdateRequest} {update : SessionUpdate} {merged : StatusDetails}
    (hupdate : sessionUpdateOf py session version body = .ok update)
    (hmerged : update.statusDetails = some merged) :
    ∃ overlay,
      mergeSessionAgentOverlay py session.statusDetails version overlay = .ok merged := by
  unfold sessionUpdateOf at hupdate
  simp only [bind, Except.bind, pure, Except.pure, throw, throwThe,
    MonadExceptOf.throw] at hupdate
  cases hagent : body.agent with
  | none =>
      simp only [hagent] at hupdate
      repeat' split at hupdate
      all_goals cases hupdate
      all_goals cases hmerged
  | some overlay =>
      refine ⟨overlay, ?_⟩
      have hresult : ∀ {result : Except HTTPException StatusDetails} {value},
          some <$> result = .ok value → value = some merged → result = .ok merged := by
        intro result value hvalue hsome
        cases result with
        | error error => cases hvalue
        | ok details =>
            cases hvalue
            cases hsome
            rfl
      simp only [hagent] at hupdate
      repeat' split at hupdate
      all_goals cases hupdate
      all_goals exact hresult (by assumption) hmerged

/-- The update of a session changes nothing but the agent in the details. -/
theorem updateSessionRequest_agent
    {py : Python} {response : ResponseContext} {body : SessionUpdateRequest}
    {start tx : Tx} (htx : updateSessionRequest py response body start = .ok tx) :
    ∃ agent, tx.session.statusDetails =
      { start.session.statusDetails with agent := agent } := by
  obtain ⟨update, hupdate, hdetails⟩ := updateSessionRequest_details htx
  rw [hdetails]
  cases hmerged : update.statusDetails with
  | none => exact ⟨start.session.statusDetails.agent, rfl⟩
  | some merged =>
      obtain ⟨overlay, hoverlay⟩ := sessionUpdateOf_merged hupdate hmerged
      exact mergeSessionAgentOverlay_eq hoverlay

def Transaction.isOutcome : Transaction → Bool
  | .outcome _ _ => true
  | _ => false

/-- The part which a transaction plays for the counter. -/
inductive RetryEffect (py : Python) (start tx : Tx) (transaction : Transaction) : Prop
  | kept
      (houtcome : transaction.isOutcome = false)
      (hfailure : transaction.isTransientFailure py = false)
      (hkept : tx.session.statusDetails.runtimeRetry =
        start.session.statusDetails.runtimeRetry)
  | reset
      (houtcome : transaction.isOutcome = true)
      (hreset : tx.session.statusDetails.runtimeRetry = none)
  | counted (retry : RuntimeRetry)
      (houtcome : transaction.isOutcome = false)
      (hfailure : transaction.isTransientFailure py = true)
      (hretry : tx.session.statusDetails.runtimeRetry = some retry)
      (hattempt : retry.attempt = nextAttempt start.session.statusDetails)
      (hdelay : 1 ≤ retry.retryAfterSeconds ∧ retry.retryAfterSeconds ≤ 300)
      (hstatus : tx.session.status =
        if retry.attempt < MAX_TRANSIENT_RETRY_ATTEMPTS then .rescheduling
        else .terminated)

theorem commitOutcome_runtimeRetry
    {py : Python} {history : List SessionEvent} {result : RuntimeResult}
    {start tx : Tx} (htx : commitOutcome py history result start = .commit tx) :
    tx.session.statusDetails.runtimeRetry = none := by
  unfold commitOutcome at htx
  split at htx
  · cases htx
  simp only at htx
  split at htx
  · cases htx
  split at htx
  · cases htx
    rfl
  split at htx
  · cases htx
  next evaluation _ =>
  cases htx
  cases evaluation with
  | none => rfl
  | some evaluation => rfl

theorem markTransientRuntimeFailure_retryEffect
    {py : Python} {exc : PyException} {start tx : Tx}
    (htransient : isTransient py exc = true)
    (htx : markTransientRuntimeFailure py exc start = .ok tx) :
    RetryEffect py start tx (.failure exc) := by
  unfold markTransientRuntimeFailure at htx
  simp only at htx
  split at htx
  · cases htx
  next seconds hseconds =>
  have hbounds := retryAfterSeconds_bounds hseconds
  split at htx
  · cases htx
  split at htx
  next hexhausted =>
    cases htx
    exact RetryEffect.counted _ rfl htransient rfl rfl hbounds
      (if_neg (not_lt.mpr hexhausted)).symm
  next hleft =>
    cases htx
    exact RetryEffect.counted _ rfl htransient rfl rfl hbounds
      (if_pos (not_le.mp hleft)).symm

theorem failTurn_retryEffect
    {py : Python} {exc : PyException} {start tx : Tx}
    (htx : failTurn py exc start = .ok tx) :
    RetryEffect py start tx (.failure exc) := by
  unfold failTurn at htx
  split at htx
  · cases htx
  next htransient =>
    apply markTransientRuntimeFailure_retryEffect _ htx
    simp [isTransient, htransient]
  next hpermanent =>
    cases htx
    apply RetryEffect.kept
    · rfl
    · simp [Transaction.isTransientFailure, isTransient, hpermanent]
    · rfl

theorem Transaction.body_retryEffect
    {py : Python} {transaction : Transaction} {start tx : Tx}
    (hbody : transaction.body py start = some tx) :
    RetryEffect py start tx transaction := by
  by_cases hkeeps : transaction.keepsDetails
  · have hdetails := Transaction.body_statusDetails hkeeps hbody
    apply RetryEffect.kept
    · cases transaction with
      | outcome history result => exact hkeeps.elim
      | _ => rfl
    · cases transaction with
      | failure exc => exact hkeeps.elim
      | _ => rfl
    · rw [hdetails]
  · cases transaction with
    | outcome history result =>
        exact RetryEffect.reset rfl
          (commitOutcome_runtimeRetry (TurnReply.commit?_eq_some.mp hbody))
    | failure exc => exact failTurn_retryEffect (Except.toOption_eq_some.mp hbody)
    | request call =>
        have hok := Except.toOption_eq_some.mp hbody
        cases call with
        | updateSession response body =>
            obtain ⟨agent, hdetails⟩ := updateSessionRequest_agent hok
            exact RetryEffect.kept rfl rfl (by rw [hdetails])
        | archiveSessionThread threadId threadExists =>
            have hdetails := archiveSessionThread_details hok
            exact RetryEffect.kept rfl rfl (by rw [hdetails]; rfl)
        | _ => exact absurd trivial hkeeps
    | _ => exact absurd trivial hkeeps

/-! ## One commit -/

section

variable {py : Python} {world : World} {attempt : Attempt} {tx : Tx} {db : Db}

theorem Attempt.isOutcome_commit (attempt : Attempt) (db : Db) :
    (attempt.commit db).isOutcome = attempt.transaction.isOutcome := by
  unfold Commit.isOutcome Transaction.isOutcome Commit.transaction Attempt.commit
  cases attempt.transaction <;> rfl

theorem transientFailures_commit (older : List Commit) :
    transientFailures py (attempt.commit db :: older) =
      if attempt.transaction.isOutcome then 0
      else if attempt.transaction.isTransientFailure py then
        transientFailures py older + 1
      else transientFailures py older := by
  rw [transientFailures, Attempt.isOutcome_commit]
  rfl

/-- A serialised commit writes its own session over the one that it read. -/
theorem Committed.serial
    (hcommitted : Committed py world attempt tx db)
    (hserial : attempt.read.session = world.db.session) :
    db.session.statusDetails = tx.session.statusDetails ∧
      db.session.status = tx.session.status := by
  have hsession : db.session =
      flushSession attempt.read.session tx.session world.db.session := by
    rw [(Tx.commit_eq_some.mp hcommitted.commit).2, hcommitted.snapshot]
  rw [hsession, hserial]
  simp [flushSession]

/-- A commit that is no transient failure revives no terminated session. -/
theorem not_revivesTerminated
    (hfailure : attempt.transaction.isTransientFailure py = false) :
    ¬ RevivesTerminated py world attempt := by
  rintro ⟨exc, hexc, -, -, htransient, -, -⟩
  rw [Attempt.exception_eq_some.mp hexc] at hfailure
  simp [Transaction.isTransientFailure, isTransient, htransient] at hfailure

/-- The counter of the last state is exact, and once it has reached the cap the
session is terminated. -/
structure Capped (py : Python) (history : List Commit) : Prop where
  counted : ∀ last ∈ history.head?,
    retryAttempt last.db.session.statusDetails = transientFailures py history
  exhausted : ∀ last ∈ history.head?,
    MAX_TRANSIENT_RETRY_ATTEMPTS ≤ transientFailures py history →
      last.db.session.status = .terminated

/-- No turn starts once the retries are used up. -/
theorem Committed.startsBelowCap
    (hcommitted : Committed py world attempt tx db)
    (hserial : attempt.read.session = world.db.session)
    (hbefore : Capped py world.history)
    (hstart : (attempt.commit db).isStart = true) :
    transientFailures py world.history < MAX_TRANSIENT_RETRY_ATTEMPTS := by
  by_contra hexhausted
  rw [not_lt] at hexhausted
  have hterminated := hbefore.exhausted world.last rfl hexhausted
  rw [Attempt.isStart_commit] at hstart
  obtain ⟨-, hcan, -⟩ := hcommitted.started hstart
  change world.db.session.status = .terminated at hterminated
  rw [hserial, canStartWork_iff, hterminated] at hcan
  rcases hcan.1 with hidle | hrescheduling
  · cases hidle
  · cases hrescheduling

theorem Committed.retryAccount
    (hcommitted : Committed py world attempt tx db)
    (hserial : attempt.read.session = world.db.session)
    (hbefore : Capped py world.history) :
    RetryAccount py (attempt.commit db) world.history := by
  have hcounted : retryAttempt attempt.read.session.statusDetails =
      transientFailures py world.history := by
    rw [hserial]
    exact hbefore.counted world.last rfl
  obtain ⟨hdetails, hstatus⟩ := hcommitted.serial hserial
  have hcount := @transientFailures_commit py attempt db world.history
  have hstarts := hcommitted.startsBelowCap hserial hbefore
  change (attempt.commit db).db.session.statusDetails = _ at hdetails
  change (attempt.commit db).db.session.status = _ at hstatus
  cases Transaction.body_retryEffect hcommitted.body with
  | kept houtcome hfailure hkept =>
      rw [houtcome, hfailure] at hcount
      refine ⟨?_, ?_, ?_, hstarts⟩
      · rw [hcount, hdetails, retryAttempt, hkept]
        exact hcounted
      · intro htransient
        exact absurd htransient (Bool.eq_false_iff.mp hfailure)
      · intro htransient
        exact absurd htransient (Bool.eq_false_iff.mp hfailure)
  | reset houtcome hreset =>
      have hfailure : attempt.transaction.isTransientFailure py = false := by
        unfold Transaction.isOutcome at houtcome
        split at houtcome
        next htransaction =>
          rw [htransaction]
          rfl
        next => cases houtcome
      rw [houtcome] at hcount
      refine ⟨?_, ?_, ?_, hstarts⟩
      · rw [hcount, hdetails, retryAttempt, hreset]
        rfl
      · intro htransient
        exact absurd htransient (Bool.eq_false_iff.mp hfailure)
      · intro htransient
        exact absurd htransient (Bool.eq_false_iff.mp hfailure)
  | counted retry houtcome hfailure hretry hattempt hdelay hwritten =>
      rw [houtcome, hfailure] at hcount
      have hnext : retry.attempt =
          transientFailures py (attempt.commit db :: world.history) := by
        rw [hcount, hattempt, nextAttempt_eq]
        exact congrArg Nat.succ hcounted
      refine ⟨?_, ?_, ?_, hstarts⟩
      · rw [hdetails, retryAttempt, hretry]
        exact hnext
      · intro _
        rw [hstatus, hwritten, hnext]
      · intro _
        rw [hdetails]
        exact ⟨retry, hretry, hdelay⟩

theorem Committed.capped
    (hcommitted : Committed py world attempt tx db)
    (hserial : attempt.read.session = world.db.session)
    (hbefore : Capped py world.history) :
    Capped py (attempt.commit db :: world.history) := by
  have haccount := hcommitted.retryAccount hserial hbefore
  constructor
  · intro last hlast
    obtain rfl : attempt.commit db = last := Option.some.inj hlast
    exact haccount.counted
  · intro last hlast hexhausted
    obtain rfl : attempt.commit db = last := Option.some.inj hlast
    by_cases hfailure : attempt.transaction.isTransientFailure py = true
    · rw [haccount.status hfailure, if_neg (not_lt.mpr hexhausted)]
    · rw [Bool.not_eq_true] at hfailure
      apply hcommitted.terminated (not_revivesTerminated hfailure)
      apply hbefore.exhausted world.last rfl
      have hcount := @transientFailures_commit py attempt db world.history
      rw [hfailure] at hcount
      rw [hcount] at hexhausted
      split at hexhausted
      · cases hexhausted
      · exact hexhausted

/-- A commit that is no failure past the cap keeps within it. -/
theorem Committed.withinCap
    (hcommitted : Committed py world attempt tx db)
    (hserial : attempt.read.session = world.db.session)
    (hbefore : Capped py world.history)
    (hcap : ¬ FailsPastCap py attempt)
    (hwithin : transientFailures py world.history ≤ MAX_TRANSIENT_RETRY_ATTEMPTS) :
    transientFailures py (attempt.commit db :: world.history) ≤
      MAX_TRANSIENT_RETRY_ATTEMPTS := by
  rw [transientFailures_commit]
  split
  · exact Nat.zero_le _
  split
  next hfailure =>
    apply Nat.succ_le_of_lt
    by_contra hexhausted
    rw [not_lt] at hexhausted
    apply hcap
    unfold Transaction.isTransientFailure at hfailure
    split at hfailure
    next exc htransaction =>
      have hexc := Attempt.exception_eq_some.mpr htransaction
      refine ⟨exc, hexc, hfailure, hcommitted.handlesFailure hexc, ?_, ?_⟩
      · rw [hserial]
        exact hbefore.exhausted world.last rfl hexhausted
      · rw [hserial]
        exact hexhausted.trans (hbefore.counted world.last rfl).ge
    next => cases hfailure
  next => exact hwithin

end

/-! ## Whole runs -/

theorem Created.retryAttempt_eq_zero
    {py : Python} {db : Db} (hcreated : Created py db) :
    retryAttempt db.session.statusDetails = 0 := by
  obtain ⟨seed, context, tx, added, happends, -, hcommit⟩ := hcreated.spec
  have hsnapshot : tx.snapshot = emptyDb seed := happends.snapshot
  have hdetails : tx.session.statusDetails = (emptyDb seed).session.statusDetails :=
    happends.statusDetails
  rw [(Tx.commit_eq_some.mp hcommit).2, hsnapshot]
  simp only [flushSession, hdetails, flushColumn_same]
  rfl

theorem Created.capped
    {py : Python} {db : Db} (hcreated : Created py db) :
    Capped py [{ writer := .created, read := db, db := db }] where
  counted := by
    intro last hlast
    obtain rfl : Commit.mk Writer.created db db = last := Option.some.inj hlast
    exact hcreated.retryAttempt_eq_zero
  exhausted := by
    intro last hlast hexhausted
    cases hexhausted

/-- A write to the work queue is no part of the account. -/
theorem Capped.work
    {py : Python} {world : World} {read db : Db}
    (hbefore : Capped py world.history) (hsession : db.session = world.db.session) :
    Capped py ({ writer := .work, read := read, db := db } :: world.history) where
  counted := by
    intro last hlast
    obtain rfl : Commit.mk Writer.work read db = last := Option.some.inj hlast
    rw [hsession]
    exact hbefore.counted world.last rfl
  exhausted := by
    intro last hlast hexhausted
    obtain rfl : Commit.mk Writer.work read db = last := Option.some.inj hlast
    change db.session.status = .terminated
    rw [hsession]
    exact hbefore.exhausted world.last rfl hexhausted

/-- In every run of serialised transactions the counter is exact and the status
follows it; no more failures than allowed follow each other if none is recorded
past the cap. -/
theorem retries_accounted
    {py : Python} {db : Db} {labels : List Label} {world : World}
    (hcreated : Created py db)
    (hserial : AllSteps (step py) Serialised (World.start db) labels)
    (hrun : run (step py) (World.start db) labels = some world) :
    RetriesAccounted py world.history ∧
      (AllSteps (step py) (NoFailurePastCap py) (World.start db) labels →
        RetriesCapped py world.history) := by
  constructor
  · suffices hboth : RetriesAccounted py world.history ∧ Capped py world.history from
      hboth.1
    refine @run_history py Serialised
      (fun history => RetriesAccounted py history ∧ Capped py history)
      ?start ?session ?work _ _ _ hcreated hserial hrun
    case start =>
      intro created hstart
      have hnone : RetriesAccounted py [] := everyEntry_nil
      refine ⟨hnone.cons ?_, hstart.capped⟩
      constructor
      · exact hstart.retryAttempt_eq_zero
      all_goals intro hnever
      all_goals cases hnever
    case session =>
      intro before label attempt tx next hbefore hlabel hattempt hcommitted
      have hread := (hlabel attempt hattempt).1
      exact ⟨hbefore.1.cons (hcommitted.retryAccount hread hbefore.2),
        hcommitted.capped hread hbefore.2⟩
    case work =>
      intro before read next hbefore hsession _
      have hcapped := @Capped.work py before read next hbefore.2 hsession
      refine ⟨hbefore.1.cons ?_, hcapped⟩
      constructor
      · exact hcapped.counted _ rfl
      all_goals intro hnever
      all_goals cases hnever
  · intro hcap
    suffices hboth : RetriesCapped py world.history ∧ Capped py world.history from hboth.1
    refine @run_history py
      (fun world label => Serialised world label ∧ NoFailurePastCap py world label)
      (fun history => RetriesCapped py history ∧ Capped py history)
      ?first ?next ?queue _ _ _ hcreated (hserial.and hcap) hrun
    case first =>
      intro created hstart
      have hnone : RetriesCapped py [] := everyEntry_nil
      exact ⟨hnone.cons (Nat.zero_le _), hstart.capped⟩
    case next =>
      intro before label attempt tx next hbefore hlabel hattempt hcommitted
      have hread := (hlabel.1 attempt hattempt).1
      have hwithin := hcommitted.withinCap hread hbefore.2 (hlabel.2 attempt hattempt)
        hbefore.1.head
      exact ⟨hbefore.1.cons hwithin, hcommitted.capped hread hbefore.2⟩
    case queue =>
      intro before read next hbefore hsession _
      have hwithin : transientFailures py before.history ≤ MAX_TRANSIENT_RETRY_ATTEMPTS :=
        hbefore.1.head
      exact ⟨hbefore.1.cons hwithin, hbefore.2.work hsession⟩

/-! ## Failures within and past the cap -/

def failedOnce : List Label :=
  [sampleSend [sampleMessage] 0 "b", .claim 0 0 0] ++ failingTurn 0 "c"

def failedOnceWorld : World :=
  (run (step samplePython) (World.start sampleDb) failedOnce).get (by decide)

theorem failedOnce_run :
    run (step samplePython) (World.start sampleDb) failedOnce = some failedOnceWorld :=
  (Option.some_get _).symm

theorem sample_failure_accounted :
    RetriesAccounted samplePython failedOnceWorld.history ∧
      RetriesCapped samplePython failedOnceWorld.history := by
  have haccounted :=
    retries_accounted sampleDb_created (by decide +kernel) failedOnce_run
  exact ⟨haccounted.1, haccounted.2 (by decide +kernel)⟩

def resume (tag : String) : Label :=
  .request 1 (.resumeSession (some sampleEnvironment)) 0 (sampleContext tag)

def otherSend (inputs : List SessionEventInput) (tag : String) : Label :=
  .request 1 (.sendEvents (some sampleEnvironment) inputs) 0 (sampleContext tag)

/-- A turn is interrupted in the middle of its model call; the next message
fails three times in another process, and then the first call times out. -/
def failedPastCap : List Label :=
  sampleTurn ++ [otherSend [sampleInterrupt] "e", otherSend [sampleMessage] "f"] ++
    .claim 0 0 0 :: failingTurn 1 "g" ++
      resume "h" :: .claim 0 0 0 :: failingTurn 2 "i" ++
        resume "j" :: .claim 0 0 0 :: failingTurn 3 "k" ++
          [.move 0 (.raise sampleTimeout), .turn 0 .fail 0 (sampleContext "l")]

theorem fourth_failure_recorded :
    AllSteps (step samplePython) Serialised (World.start sampleDb) failedPastCap ∧
      ∃ world, run (step samplePython) (World.start sampleDb) failedPastCap = some world ∧
        ¬ RetriesCapped samplePython world.history := by
  constructor
  · decide +kernel
  have hfacts :
      (run (step samplePython) (World.start sampleDb) failedPastCap).map
        (fun world => transientFailures samplePython world.history) = some 4 := by
    decide
  obtain ⟨world, hrun, hworld⟩ := Option.map_eq_some_iff.mp hfacts
  refine ⟨world, hrun, ?_⟩
  intro hcapped
  have hlast : transientFailures samplePython world.history ≤
      MAX_TRANSIENT_RETRY_ATTEMPTS := hcapped.head
  rw [hworld] at hlast
  revert hlast
  decide

end ManagedAgents
