import ManagedAgents.SystemRuns

/-!
# Failure handlers

The handler of a failed turn converts attributes of the exception outside of
any `try` block.  Conversions that raise `TypeError` or `ValueError` are caught
one by one; an overflow is not, and neither is the refusal of `json.dumps` to
write an integer with too many digits.
-/

namespace ManagedAgents

open LabelledRuns SequencedLog

/-! ## The handler -/

/-- The most digits of an integer which the interpreter turns into text. -/
def INT_MAX_STR_DIGITS : ℕ := 4300

def encodesInt (value : ℤ) : Bool :=
  value.natAbs < 10 ^ INT_MAX_STR_DIGITS

/-- `json.dumps` of the details that the handler writes. -/
def encodesRetry (retry : RuntimeRetry) : Bool :=
  retry.error.statusCode.all encodesInt

/-- The `except` block of a turn, with the flush of the column that it writes. -/
def handleFailure (py : Python) (exc : PyException) (tx : Tx) : Option Tx :=
  (failTurn py exc tx).toOption.filter fun written =>
    written.session.statusDetails = tx.session.statusDetails ||
      written.session.statusDetails.runtimeRetry.all encodesRetry

/-- The handler of the exception commits on the state that it reads and leaves
the session rescheduling or terminated, with an error event. -/
def FailureRecorded (py : Python) (exc : PyException) (db : Db) (context : Context) :
    Prop :=
  ∃ tx next, handleFailure py exc (Tx.begin db context) = some tx ∧
    tx.commit db = some next ∧
    (next.session.status = .rescheduling ∨ next.session.status = .terminated) ∧
    next.events = db.events ++ tx.appended ∧
    ∃ event ∈ tx.appended, event.type = "session.error"

/-! ## Conversions that overflow -/

/-- `int(value)` of an infinity. -/
def intOverflows : Json → Bool
  | .float (.inf _) => true
  | _ => false

/-- `int(float(value))` of an infinity, of a text which reads as one, or of an
integer beyond the range of floats. -/
def floatOverflows (py : Python) : Json → Bool
  | .float (.inf _) => true
  | .int value =>
      match py.floatOfInt value with
      | none | some (.inf _) => true
      | _ => false
  | .str text =>
      match py.floatOfStr text with
      | some (.inf _) => true
      | _ => false
  | _ => false

/-- No conversion which the handler gets to overflows, and the status code of a
transient exception can be written. -/
structure Convertible (py : Python) (exc : PyException) : Prop where
  statusCode : intOverflows exc.statusCode = false
  status : (py.int exc.statusCode).toOption = none → intOverflows exc.status = false
  retryAfter : isTransient py exc = true → floatOverflows py exc.retryAfter = false
  header : isTransient py exc = true → positiveInt py exc.retryAfter = .ok none →
    floatOverflows py exc.retryAfterHeader = false
  digits : isTransient py exc = true →
    ∀ code, ManagedAgents.statusCode py exc = .ok (some code) → encodesInt code = true

section

variable {py : Python} {exc : PyException}

theorem statusCodeOf_ok_iff (value : Json) :
    (statusCodeOf py value).toOption.isSome = true ↔ intOverflows value = false := by
  unfold statusCodeOf
  cases value with
  | float value =>
      cases value <;>
        simp [Python.int, PyFloat.toInt, intOverflows, Except.toOption]
  | str text =>
      cases hparsed : py.intOfStr text <;>
        simp [Python.int, intOverflows, Except.toOption, hparsed]
  | _ => simp [Python.int, intOverflows, Except.toOption]

theorem positiveInt_ok_iff (value : Json) :
    (positiveInt py value).toOption.isSome = true ↔
      floatOverflows py value = false := by
  unfold positiveInt
  cases value with
  | float value =>
      cases value <;>
        simp [Python.float, PyFloat.toInt, floatOverflows, Except.toOption, Except.bind]
  | int value =>
      cases hconverted : py.floatOfInt value with
      | none =>
          simp [Python.float, floatOverflows, Except.toOption, Except.bind,
            hconverted]
      | some converted =>
          cases converted <;>
            simp [Python.float, PyFloat.toInt, floatOverflows, Except.toOption,
              Except.bind, hconverted]
  | str text =>
      cases hparsed : py.floatOfStr text with
      | none =>
          simp [Python.float, floatOverflows, Except.toOption, Except.bind, hparsed]
      | some parsed =>
          cases parsed <;>
            simp [Python.float, PyFloat.toInt, floatOverflows, Except.toOption,
              Except.bind, hparsed]
  | _ => simp [Python.float, PyFloat.toInt, floatOverflows, Except.toOption, Except.bind]

theorem statusCodeOf_eq_none_iff (value : Json) :
    statusCodeOf py value = .ok none ↔
      (py.int value).toOption = none ∧ intOverflows value = false := by
  rw [← @statusCodeOf_ok_iff py]
  unfold statusCodeOf
  cases py.int value with
  | ok code => simp [Except.toOption]
  | error error => cases error <;> simp [Except.toOption]

theorem statusCode_ok_iff :
    (∃ code, statusCode py exc = .ok code) ↔
      intOverflows exc.statusCode = false ∧
        ((py.int exc.statusCode).toOption = none →
          intOverflows exc.status = false) := by
  have hfirst := @statusCodeOf_ok_iff py exc.statusCode
  have hnone := @statusCodeOf_eq_none_iff py exc.statusCode
  unfold statusCode
  cases hcode : statusCodeOf py exc.statusCode with
  | error error =>
      rw [hcode] at hfirst
      simp [Except.toOption] at hfirst
      simp [hfirst]
  | ok code =>
      rw [hcode] at hfirst hnone
      have hfine := hfirst.mp rfl
      cases code with
      | some code =>
          simp only [Except.ok.injEq, reduceCtorEq, false_iff, not_and] at hnone
          have hconverted : (py.int exc.statusCode).toOption ≠ none :=
            fun hfails => hnone hfails hfine
          simp [hfine, hconverted]
      | none =>
          have hfails := (hnone.mp rfl).1
          simp only [hfine, hfails, true_and, forall_const]
          rw [← @statusCodeOf_ok_iff py exc.status]
          cases statusCodeOf py exc.status <;> simp [Except.toOption]

theorem retryAfterSeconds_ok_iff (attempt : ℕ) :
    (∃ seconds, retryAfterSeconds py exc attempt = .ok seconds) ↔
      floatOverflows py exc.retryAfter = false ∧
        (positiveInt py exc.retryAfter = .ok none →
          floatOverflows py exc.retryAfterHeader = false) := by
  have hdirect := @positiveInt_ok_iff py exc.retryAfter
  have hheader := @positiveInt_ok_iff py exc.retryAfterHeader
  unfold retryAfterSeconds
  cases hparsed : positiveInt py exc.retryAfter with
  | error error =>
      rw [hparsed] at hdirect
      simp [Except.toOption] at hdirect
      simp [hdirect]
  | ok direct =>
      rw [hparsed] at hdirect
      have hfine := hdirect.mp rfl
      cases direct with
      | some direct => simp [hfine]
      | none =>
          simp only [hfine, true_and, forall_const]
          cases hsecond : positiveInt py exc.retryAfterHeader with
          | error error =>
              rw [hsecond] at hheader
              simp [Except.toOption] at hheader
              simp [hheader]
          | ok header =>
              rw [hsecond] at hheader
              have hfine := hheader.mp rfl
              cases header with
              | some parsed => simp [hfine]
              | none => simp [hfine]

theorem isTransientRuntimeError_ok_iff :
    (∃ transient, isTransientRuntimeError py exc = .ok transient) ↔
      ∃ code, statusCode py exc = .ok code := by
  unfold isTransientRuntimeError
  cases statusCode py exc with
  | error error => simp
  | ok code =>
      simp only [Except.ok.injEq, exists_eq', iff_true]
      split
      · exact ⟨_, rfl⟩
      · split <;> exact ⟨_, rfl⟩

/-! ## What the handler writes -/

theorem failTurn_ok_iff {start : Tx} :
    (∃ tx, failTurn py exc start = .ok tx) ↔
      (∃ code, statusCode py exc = .ok code) ∧
        (isTransient py exc = true →
          ∃ seconds, retryAfterSeconds py exc
            (nextAttempt start.session.statusDetails) = .ok seconds) := by
  rw [← isTransientRuntimeError_ok_iff]
  unfold failTurn isTransient
  cases htransient : isTransientRuntimeError py exc with
  | error error => simp
  | ok transient =>
      cases transient with
      | false => simp
      | true =>
          obtain ⟨code, hcode⟩ :=
            isTransientRuntimeError_ok_iff.mp ⟨true, htransient⟩
          simp only [Except.ok.injEq, exists_eq', true_and, forall_const]
          unfold markTransientRuntimeFailure
          simp only [hcode]
          cases retryAfterSeconds py exc (nextAttempt start.session.statusDetails) with
          | error error => simp
          | ok seconds =>
              simp only [Except.ok.injEq, exists_eq', iff_true]
              split <;> exact ⟨_, rfl⟩

/-- The row and the events of a handled failure. -/
structure FailureWritten (db : Db) (context : Context) (tx : Tx) : Prop where
  status : tx.session.status = .rescheduling ∨ tx.session.status = .terminated
  error : ∃ event ∈ tx.appended, event.type = "session.error"
  ids : tx.appended.map SessionEvent.id =
    (List.range 2).map fun index => "evt" ++ "_" ++ context.uuid index
  enqueued : tx.enqueued = []

variable {db : Db} {context : Context} {tx : Tx}

/-- Both ends of the handler update the row, append the error and announce the
status. -/
theorem FailureWritten.of_eq
    {update : SessionUpdate} {status : SessionStatus} {eventType : String}
    {error announcement : Dict}
    (hupdate : update.status = some status)
    (hends : status = .rescheduling ∨ status = .terminated)
    (htx : tx = appendEvent py
      (appendEvent py (updateSession (Tx.begin db context) update) .server
        "session.error" error) .server eventType announcement) :
    FailureWritten db context tx := by
  subst htx
  constructor
  · simpa [appendEvent, updateSession, hupdate] using hends
  · have herror := List.mem_append_right [] (List.mem_singleton_self
      ((updateSession (Tx.begin db context) update).newEvent py .server
        "session.error" error))
    exact ⟨_, List.mem_append_left _ herror, rfl⟩
  · rfl
  · rfl

theorem failTurn_written (htx : failTurn py exc (Tx.begin db context) = .ok tx) :
    FailureWritten db context tx := by
  unfold failTurn at htx
  split at htx
  · cases htx
  · unfold markTransientRuntimeFailure at htx
    simp only at htx
    split at htx
    · cases htx
    split at htx
    · cases htx
    split at htx
    · cases htx
      exact FailureWritten.of_eq rfl (Or.inr rfl) rfl
    · cases htx
      exact FailureWritten.of_eq rfl (Or.inl rfl) rfl
  · cases htx
    exact FailureWritten.of_eq rfl (Or.inr rfl) rfl

/-- A transient failure replaces the retry state by one with a later attempt. -/
theorem failTurn_retry
    {start : Tx} (htx : failTurn py exc start = .ok tx) :
    (isTransient py exc = false ∧
      tx.session.statusDetails = start.session.statusDetails) ∨
    (isTransient py exc = true ∧
      ∃ retry, tx.session.statusDetails.runtimeRetry = some retry ∧
        retry.attempt = nextAttempt start.session.statusDetails ∧
        statusCode py exc = .ok retry.error.statusCode) := by
  unfold failTurn at htx
  unfold isTransient
  split at htx
  · cases htx
  next htransient =>
    right
    refine ⟨by rw [htransient], ?_⟩
    unfold markTransientRuntimeFailure at htx
    simp only at htx
    split at htx
    · cases htx
    split at htx
    · cases htx
    next code hcode =>
    split at htx
    · cases htx
      exact ⟨_, rfl, rfl, hcode⟩
    · cases htx
      exact ⟨_, rfl, rfl, hcode⟩
  next hpermanent =>
    left
    cases htx
    exact ⟨by rw [hpermanent], rfl⟩

theorem nextAttempt_ne
    {details : StatusDetails} {retry : RuntimeRetry}
    (hretry : details.runtimeRetry = some retry) :
    retry.attempt ≠ nextAttempt details := by
  simp [nextAttempt, hretry]

theorem failTurn_encodes_iff
    {start : Tx} (htx : failTurn py exc start = .ok tx) :
    (tx.session.statusDetails = start.session.statusDetails ||
      tx.session.statusDetails.runtimeRetry.all encodesRetry) = true ↔
      (isTransient py exc = true →
        ∀ code, statusCode py exc = .ok (some code) → encodesInt code = true) := by
  rcases failTurn_retry htx with ⟨hpermanent, hdetails⟩ |
    ⟨htransient, retry, hretry, hattempt, hcode⟩
  · simp [hpermanent, hdetails]
  · have hchanged : tx.session.statusDetails ≠ start.session.statusDetails := by
      intro hsame
      rw [hsame] at hretry
      exact nextAttempt_ne hretry hattempt
    simp [hchanged, htransient, hretry, hcode, encodesRetry]
    cases retry.error.statusCode with
    | none => simp
    | some code => simp

theorem handleFailure_eq_some_iff {start : Tx} :
    handleFailure py exc start = some tx ↔
      failTurn py exc start = .ok tx ∧
        (isTransient py exc = true →
          ∀ code, statusCode py exc = .ok (some code) → encodesInt code = true) := by
  unfold handleFailure
  rw [Option.filter_eq_some_iff, Except.toOption_eq_some]
  exact and_congr_right fun htx => failTurn_encodes_iff htx

theorem handleFailure_iff :
    (∃ tx, handleFailure py exc (Tx.begin db context) = some tx) ↔
      Convertible py exc := by
  simp only [handleFailure_eq_some_iff, exists_and_right]
  rw [failTurn_ok_iff, statusCode_ok_iff]
  constructor
  · rintro ⟨⟨⟨hcode, hstatus⟩, hseconds⟩, hdigits⟩
    have hdelay := fun htransient =>
      (retryAfterSeconds_ok_iff _).mp (hseconds htransient)
    exact
      { statusCode := hcode
        status := hstatus
        retryAfter := fun htransient => (hdelay htransient).1
        header := fun htransient => (hdelay htransient).2
        digits := hdigits }
  · intro hconvertible
    refine ⟨⟨⟨hconvertible.statusCode, hconvertible.status⟩, ?_⟩,
      hconvertible.digits⟩
    intro htransient
    apply (retryAfterSeconds_ok_iff _).mpr
    exact ⟨hconvertible.retryAfter htransient, hconvertible.header htransient⟩

end

/-! ## Failing turns -/

theorem FailureWritten.commit
    {tx : Tx} {db : Db} {context : Context}
    (hwritten : FailureWritten db context tx) (hdisciplined : Disciplined db tx)
    (hfresh : FreshUuids db context 2) (hwellFormed : WellFormed db) :
    ∃ next, tx.commit db = some next ∧
      next.session.status = tx.session.status ∧
      next.events = db.events ++ tx.appended := by
  have hsnapshot := hdisciplined.snapshot_eq
  have hnumbered := hdisciplined.sequenced.numbered
  rw [hsnapshot] at hnumbered
  have hkeeps : ¬ tx.Violates db := by
    apply hfresh.not_violates hwellFormed hnumbered hwritten.ids
    rw [hwritten.enqueued]
    rintro ⟨item, hitem, -⟩
    cases hitem
  refine ⟨_, Tx.commit_eq_some.mpr ⟨hkeeps, rfl⟩, ?_, rfl⟩
  rw [hsnapshot]
  simp [flushSession]

/-- A turn that raises is recorded by its handler, in every state which the
handler can read, exactly when the conversions of the handler go through. -/
theorem failing_turn_recorded_iff
    {py : Python} {db : Db} {labels : List Label} {world : World}
    (exc : PyException) {context : Context}
    (hcreated : Created py db)
    (hrun : run (step py) (World.start db) labels = some world)
    (hfresh : FreshUuids world.db context 2) :
    FailureRecorded py exc world.db context ↔ Convertible py exc := by
  constructor
  · rintro ⟨tx, next, htx, -⟩
    exact handleFailure_iff.mp ⟨tx, htx⟩
  · intro hconvertible
    obtain ⟨tx, htx⟩ := handleFailure_iff.mpr hconvertible
    have hfail := (handleFailure_eq_some_iff.mp htx).1
    have hwritten := failTurn_written hfail
    have hwellFormed := run_wellFormed hcreated hrun
    obtain ⟨next, hcommit, hstatus, hevents⟩ :=
      hwritten.commit (failTurn_effect hfail).2 hfresh hwellFormed
    refine ⟨tx, next, htx, hcommit, ?_, hevents, hwritten.error⟩
    rw [hstatus]
    exact hwritten.status

theorem sample_timeout_recorded :
    FailureRecorded samplePython sampleTimeout sampleTurnWorld.db
      (sampleContext "f") := by
  have hfresh : FreshUuids sampleTurnWorld.db (sampleContext "f") 2 := by decide
  apply (failing_turn_recorded_iff sampleTimeout sampleDb_created sampleTurn_run
    hfresh).mpr
  constructor
  · decide
  · decide
  · decide
  · decide
  · intro _ code hcode
    cases hcode

/-- A timeout that asks for an endless wait. -/
def endlessTimeout : PyException :=
  { sampleTimeout with retryAfter := .float (.inf false) }

/-- The handler of the timeout raises itself: the execution is over, its item
has failed, and the session is left running without an error event. -/
theorem endless_timeout_leaves_session_running :
    ∃ world, run (step samplePython) sampleTurnWorld
        [.move 0 (.raise endlessTimeout),
         .turn 0 .fail 0 (sampleContext "f"),
         .move 0 .leave,
         .finish 0 0 9] = some world ∧
      world.executions 0 = none ∧
      world.db.work.map EnvironmentWork.status = [.error] ∧
      world.db.session.status = .running ∧
      ∀ event ∈ world.db.events, event.type ≠ "session.error" := by
  refine ⟨_, (Option.some_get (by decide)).symm, ?_⟩
  decide

end ManagedAgents
