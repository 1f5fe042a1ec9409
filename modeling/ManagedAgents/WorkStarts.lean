import Mathlib.Data.List.DropRight
import ManagedAgents.ClientEvents
import ManagedAgents.WorkRows

/-!
# Runs behind work-starting events

Client events enter a log with a sent batch, or with the run of a deployment,
by hand or by the scheduler.  A sent batch enqueues a work item for the
work-starting events in it unless it interrupts, wherever the interrupt stands
in the batch.  The run of a deployment enqueues nothing.
-/

namespace ManagedAgents

/-- The operations which append events of clients to a session. -/
inductive Operation
  | sendEvents (read : Db) (environment : Option Environment)
      (inputs : List SessionEventInput)
  | deploymentRun (seed : SessionSeed) (initialEvents : List Dict)

/-- The transaction to commit. -/
def Operation.body (py : Python) (context : Context) : Operation → Option Tx
  | .sendEvents read environment inputs =>
      (ManagedAgents.sendEvents py environment inputs (Tx.begin read context)).toOption
  | .deploymentRun seed initialEvents =>
      match validateDeploymentInitialEvents py initialEvents with
      | .error _ => none
      | .ok () =>
          some (appendInitialEvents py (beginSession py seed context) initialEvents)

theorem createDeploymentSession_eq
    (py : Python) (seed : SessionSeed) (context : Context) (initialEvents : List Dict) :
    createDeploymentSession py seed context initialEvents =
      ((Operation.deploymentRun seed initialEvents).body py context).bind
        fun tx => tx.commit (emptyDb seed) := by
  unfold createDeploymentSession
  simp only [Operation.body]
  cases validateDeploymentInitialEvents py initialEvents with
  | error error => rfl
  | ok _ => rfl

/-- Behind every appended event that starts work and is not interrupted by a
later one stands a queued work item of the session. -/
def StartsHaveRuns (tx : Tx) : Prop :=
  ∀ front event back, tx.appended = front ++ event :: back →
    startsWork event.type = true →
    (∀ later ∈ back, later.type ≠ "user.interrupt") →
    ∃ work ∈ tx.enqueued, work.data.sessionId = tx.session.id ∧ work.status = .queued

/-! ## The end of a batch -/

/-- Work is started after the last interrupt. -/
def startsLast (types : List String) : Bool :=
  (types.rtakeWhile fun type => type ≠ "user.interrupt").any startsWork

theorem rtakeWhile_append
    {types back : List String} (hback : "user.interrupt" ∉ back) :
    (types ++ back).rtakeWhile (fun type => type ≠ "user.interrupt") =
      types.rtakeWhile (fun type => type ≠ "user.interrupt") ++ back := by
  have hall : ∀ type ∈ back.reverse, decide (type ≠ "user.interrupt") = true := by
    intro type htype
    have hne := ne_of_mem_of_not_mem (List.mem_reverse.mp htype) hback
    exact decide_eq_true hne
  unfold List.rtakeWhile
  rw [List.reverse_append, List.takeWhile_append_of_pos hall, List.reverse_append,
    List.reverse_reverse]

theorem startsLast_iff (types : List String) :
    startsLast types = true ↔
      ∃ front type back, types = front ++ type :: back ∧ startsWork type = true ∧
        "user.interrupt" ∉ back := by
  unfold startsLast
  rw [List.any_eq_true]
  constructor
  · rintro ⟨type, htype, hstarts⟩
    obtain ⟨before, hbefore⟩ :=
      List.rtakeWhile_suffix (fun type => decide (type ≠ "user.interrupt")) types
    obtain ⟨front, back, hsplit⟩ := List.append_of_mem htype
    refine ⟨before ++ front, type, back, ?_, hstarts, ?_⟩
    · rw [List.append_assoc, ← hsplit, hbefore]
    · intro hinterrupt
      have hmem : "user.interrupt" ∈
          types.rtakeWhile fun type => decide (type ≠ "user.interrupt") := by
        rw [hsplit]
        exact List.mem_append_right _ (List.mem_cons_of_mem _ hinterrupt)
      have hne := List.mem_rtakeWhile_imp hmem
      revert hne
      decide
  · rintro ⟨front, type, back, rfl, hstarts, hback⟩
    have hnone : "user.interrupt" ∉ type :: back := by
      intro hmem
      rcases List.mem_cons.mp hmem with rfl | hmem
      · revert hstarts
        decide
      · exact hback hmem
    rw [rtakeWhile_append hnone]
    exact ⟨type, List.mem_append_right _ List.mem_cons_self, hstarts⟩

theorem startsLast_concat
    {types : List String} {type : String} (hother : type ≠ "user.interrupt")
    (hstarts : startsWork type = false) :
    startsLast (types ++ [type]) = startsLast types := by
  have hback : "user.interrupt" ∉ [type] := by
    simpa using hother.symm
  unfold startsLast
  rw [rtakeWhile_append hback, List.any_append]
  simp [hstarts]

/-- Only the types of the appended events matter. -/
theorem startsHaveRuns_iff
    {tx : Tx} :
    StartsHaveRuns tx ↔
      (startsLast (tx.appended.map SessionEvent.type) = true →
        ∃ work ∈ tx.enqueued, work.data.sessionId = tx.session.id ∧
          work.status = .queued) := by
  rw [startsLast_iff]
  constructor
  · rintro hruns ⟨front, type, back, hsplit, hstarts, hback⟩
    obtain ⟨frontEvents, rest, happended, -, hrest⟩ := List.map_eq_append_iff.mp hsplit
    obtain ⟨event, backEvents, rfl, rfl, hbackEvents⟩ := List.map_eq_cons_iff.mp hrest
    apply hruns frontEvents event backEvents happended hstarts
    intro later hlater hinterrupt
    apply hback
    rw [← hbackEvents, ← hinterrupt]
    exact List.mem_map_of_mem hlater
  · intro hlast front event back hsplit hstarts hback
    apply hlast
    refine ⟨front.map SessionEvent.type, event.type, back.map SessionEvent.type, ?_,
      hstarts, ?_⟩
    · rw [hsplit, List.map_append, List.map_cons]
    · intro hmem
      obtain ⟨later, hlater, htype⟩ := List.mem_map.mp hmem
      exact hback later hlater htype

/-! ## Sent batches -/

section

variable {py : Python} {start : Tx} {inputs : List SessionEventInput}

theorem sendLoop_starts
    {tx : Tx} {flags : SendFlags}
    (hresults : ∀ input ∈ inputs, input.type ∉ ACTION_RESULT_EVENTS)
    (hstarts : flags.shouldRun = true ∨ hasWorkStart inputs = true) :
    (sendLoop py tx flags inputs).2.shouldRun = true := by
  induction inputs generalizing tx flags with
  | nil =>
      rcases hstarts with hflags | hnone
      · exact hflags
      · cases hnone
  | cons input rest ih =>
      have hresult : isActionResult input.type = false := by
        simpa [isActionResult] using hresults input List.mem_cons_self
      unfold sendLoop
      apply ih fun other hother => hresults other (List.mem_cons_of_mem _ hother)
      simp only [hresult, Bool.false_eq_true, if_false]
      simp only [hasWorkStart, List.any_cons, Bool.or_eq_true] at hstarts
      split
      next hinterrupt =>
        have hother : startsWork input.type = false := by
          rw [hinterrupt]
          decide
        rw [hother] at hstarts
        simpa [hasWorkStart] using hstarts
      next =>
      split
      · exact Or.inl rfl
      next hother =>
        simpa [hasWorkStart, hother] using hstarts

/-- A session that waits for actions takes no other events. -/
theorem validateBatchForState_waiting
    (hidle : start.session.status = .idle)
    (hwaiting : isWaitingForAction start.session.stopReason = true)
    (hinterrupt : hasInterrupt inputs = false)
    (hvalid : validateBatchForState py start inputs = .ok ()) :
    ∀ input ∈ inputs, input.type ≠ "system.message" →
      input.type ∈ ACTION_RESULT_EVENTS := by
  have hinactive : start.session.status ∉ ACTIVE_STATUSES := by
    rw [hidle]
    decide
  have htypes : inputs.map SessionEventInput.type ≠ ["user.interrupt"] := by
    intro htypes
    have hmem : "user.interrupt" ∈ inputs.map SessionEventInput.type := by
      rw [htypes]
      exact List.mem_singleton_self _
    obtain ⟨input, hinput, htype⟩ := List.mem_map.mp hmem
    have hnone := List.any_eq_false.mp hinterrupt input hinput
    simp [htype] at hnone
  unfold validateBatchForState at hvalid
  simp only [hinactive, hwaiting, htypes, if_true, if_false] at hvalid
  split at hvalid
  · cases hvalid
  next hresults =>
  rw [not_or, not_not] at hresults
  intro input hinput hother
  apply hresults.2 input
  simp [hinput, hother]

/-- An accepted batch with a work-starting event and no interrupt answers no
actions. -/
theorem validateEventBatch_starts
    (hopen : start.session.status ≠ .terminated)
    (hvalid : validateEventBatch py start inputs = .ok ())
    (hinterrupt : hasInterrupt inputs = false) (hstarts : hasWorkStart inputs = true) :
    ∀ input ∈ inputs, input.type ∉ ACTION_RESULT_EVENTS := by
  obtain ⟨input, hinput, hstart⟩ := List.any_eq_true.mp hstarts
  have hinactive := validateEventBatch_inactive hvalid hinterrupt
  have hidle : start.session.status = .idle := by
    cases hstatus : start.session.status with
    | idle => rfl
    | terminated => exact absurd hstatus hopen
    | running =>
        rw [hstatus] at hinactive
        cases hinactive
    | rescheduling =>
        rw [hstatus] at hinactive
        cases hinactive
  obtain ⟨-, -, hstate⟩ := validateEventBatch_ok_iff.mp hvalid
  cases hwaiting : isWaitingForAction start.session.stopReason with
  | false => exact (validateBatchForState_free hidle hwaiting).mp hstate
  | true =>
      have hother : input.type ≠ "system.message" := by
        intro hsystem
        rw [hsystem] at hstart
        revert hstart
        decide
      have hresult := validateBatchForState_waiting hidle hwaiting hinterrupt hstate
        input hinput hother
      have hnever : ∀ type ∈ ACTION_RESULT_EVENTS, startsWork type = false := by decide
      rw [hnever input.type hresult] at hstart
      cases hstart

theorem sendEvents_appended
    {environment : Option Environment} {read : Db} {context : Context} {tx : Tx}
    (hsend : sendEvents py environment inputs (Tx.begin read context) = .ok tx) :
    tx.appended.map SessionEvent.type =
      inputs.map SessionEventInput.type ++
        if hasInterrupt inputs = true then ["session.status_idle"] else [] := by
  obtain ⟨-, -, rfl⟩ := sendEvents_ok_iff.mp hsend
  obtain ⟨added, happends, htypes, -⟩ :=
    sendLoop_appends py (Tx.begin read context) {} inputs
  have hsent : (sendLoop py (Tx.begin read context) {} inputs).1.appended = added :=
    happends.appended
  have hflag := sendLoop_shouldInterrupt py (Tx.begin read context) {} inputs
  rw [Bool.false_or] at hflag
  unfold settleSend
  rw [hflag]
  split
  · simp [appendEvent, updateSession, hsent, htypes, Tx.newEvent]
  · rw [List.append_nil, ← htypes, ← hsent]
    split
    · split
      · rfl
      · rfl
    · rfl

theorem startsLast_of_not_interrupt
    (hinterrupt : hasInterrupt inputs = false) :
    startsLast (inputs.map SessionEventInput.type) = hasWorkStart inputs := by
  have hall : ∀ type ∈ inputs.map SessionEventInput.type,
      decide (type ≠ "user.interrupt") = true := by
    intro type htype
    obtain ⟨input, hinput, rfl⟩ := List.mem_map.mp htype
    simpa using List.any_eq_false.mp hinterrupt input hinput
  unfold startsLast hasWorkStart
  rw [List.rtakeWhile_eq_self_iff.mpr hall, List.any_map]
  rfl

/-- A sent batch enqueues nothing if it interrupts. -/
theorem sendEvents_interrupted
    {environment : Option Environment} {read : Db} {context : Context} {tx : Tx}
    (hsend : sendEvents py environment inputs (Tx.begin read context) = .ok tx)
    (hinterrupt : hasInterrupt inputs = true) : tx.enqueued = [] := by
  obtain ⟨-, -, rfl⟩ := sendEvents_ok_iff.mp hsend
  have hflag := sendLoop_shouldInterrupt py (Tx.begin read context) {} inputs
  obtain ⟨added, happends, -, -⟩ :=
    sendLoop_appends py (Tx.begin read context) {} inputs
  rw [hinterrupt, Bool.or_true] at hflag
  unfold settleSend
  rw [if_pos hflag]
  exact happends.enqueued

/-- A sent batch with a work-starting event and no interrupt enqueues an
item. -/
theorem sendEvents_run
    {environment : Option Environment} {read : Db} {context : Context} {tx : Tx}
    (hsend : sendEvents py environment inputs (Tx.begin read context) = .ok tx)
    (hinterrupt : hasInterrupt inputs = false) (hstarts : hasWorkStart inputs = true) :
    ∃ work ∈ tx.enqueued, work.data.sessionId = tx.session.id ∧
      work.status = .queued := by
  obtain ⟨⟨-, -, hopen, -⟩, hvalid, rfl⟩ := sendEvents_ok_iff.mp hsend
  have hflag := sendLoop_shouldInterrupt py (Tx.begin read context) {} inputs
  rw [hinterrupt, Bool.or_false] at hflag
  have hresults := validateEventBatch_starts hopen hvalid hinterrupt hstarts
  have hrun := @sendLoop_starts py inputs (Tx.begin read context) {} hresults
    (Or.inr hstarts)
  unfold settleSend
  simp only [hflag, hrun, Bool.false_eq_true, if_false, if_true]
  exact ⟨_, List.mem_append_right _ (List.mem_singleton_self _), by
    split <;> simp [enqueueSessionRun, updateSession], rfl⟩

end

/-! ## Deployments -/

theorem appendInitialEvents_types
    (py : Python) (tx : Tx) (initialEvents : List Dict) :
    (appendInitialEvents py tx initialEvents).appended.map SessionEvent.type =
      tx.appended.map SessionEvent.type ++ initialEvents.map (initialEventType py) := by
  unfold appendInitialEvents
  induction initialEvents generalizing tx with
  | nil => simp
  | cons rawEvent rest ih =>
      rw [List.foldl_cons, ih]
      simp [appendEvent, Tx.newEvent]

/-- The run of a deployment appends a message and enqueues nothing. -/
theorem deploymentRun_lacks_run
    {py : Python} {seed : SessionSeed} {context : Context} {initialEvents : List Dict}
    {tx : Tx}
    (hbody : (Operation.deploymentRun seed initialEvents).body py context = some tx) :
    ¬ StartsHaveRuns tx := by
  simp only [Operation.body] at hbody
  split at hbody
  · cases hbody
  next hvalid =>
  cases hbody
  have hmessage : "user.message" ∈ initialEvents.map (initialEventType py) := by
    unfold validateDeploymentInitialEvents at hvalid
    simp only at hvalid
    repeat' split at hvalid
    all_goals cases hvalid
    next hmem => exact not_not.mp hmem
  have hnone : "user.interrupt" ∉ initialEvents.map (initialEventType py) := by
    intro hmem
    obtain ⟨rawEvent, hevent, htype⟩ := List.mem_map.mp hmem
    have hallowed := validateDeploymentInitialEvents_types hvalid rawEvent hevent
    rw [htype] at hallowed
    revert hallowed
    decide
  obtain ⟨front, back, hsplit⟩ := List.append_of_mem hmessage
  have hlast : startsLast
      ((appendInitialEvents py (beginSession py seed context) initialEvents).appended.map
        SessionEvent.type) = true := by
    rw [appendInitialEvents_types, hsplit, startsLast_iff]
    refine ⟨_, "user.message", back, (List.append_assoc _ _ _).symm, by decide, ?_⟩
    intro hmem
    apply hnone
    rw [hsplit]
    exact List.mem_append_right _ (List.mem_cons_of_mem _ hmem)
  obtain ⟨added, happends, -⟩ :=
    appendInitialEvents_appends py (beginSession py seed context) initialEvents
  intro hruns
  obtain ⟨work, hwork, -⟩ := startsHaveRuns_iff.mp hruns hlast
  rw [happends.enqueued] at hwork
  cases hwork

/-! ## All operations -/

/-- The batch is sent, and if it interrupts, starts no work after its last
interrupt. -/
def Operation.RunsStarts : Operation → Prop
  | .sendEvents _ _ inputs =>
      hasInterrupt inputs = true →
        startsLast (inputs.map SessionEventInput.type) = false
  | .deploymentRun _ _ => False

instance (operation : Operation) : Decidable operation.RunsStarts := by
  unfold Operation.RunsStarts
  split
  · infer_instance
  · infer_instance

/-- An operation has a run behind every work-starting event that it appends
exactly when it is a sent batch without such an event after an interrupt. -/
theorem work_starts_have_runs_iff
    {py : Python} {context : Context} {operation : Operation} {tx : Tx}
    (hbody : operation.body py context = some tx) :
    StartsHaveRuns tx ↔ operation.RunsStarts := by
  cases operation with
  | deploymentRun seed initialEvents =>
      have hlacks := deploymentRun_lacks_run hbody
      exact ⟨fun hruns => hlacks hruns, fun hnever => hnever.elim⟩
  | sendEvents read environment inputs =>
      have hsend : sendEvents py environment inputs (Tx.begin read context) = .ok tx :=
        Except.toOption_eq_some.mp hbody
      rw [startsHaveRuns_iff, sendEvents_appended hsend]
      change _ ↔ (hasInterrupt inputs = true →
        startsLast (inputs.map SessionEventInput.type) = false)
      cases hinterrupt : hasInterrupt inputs with
      | false =>
          simp only [Bool.false_eq_true, if_false, List.append_nil, false_implies,
            iff_true]
          rw [startsLast_of_not_interrupt hinterrupt]
          exact sendEvents_run hsend hinterrupt
      | true =>
          rw [if_pos rfl, sendEvents_interrupted hsend hinterrupt,
            startsLast_concat (by decide) (by decide)]
          simp

/-! ## A message and a deployment -/

theorem sample_message_has_run :
    ∃ tx, (Operation.sendEvents sampleDb (some sampleEnvironment) [sampleMessage]).body
        samplePython (sampleContext "b") = some tx ∧
      StartsHaveRuns tx := by
  have hsome : ((Operation.sendEvents sampleDb (some sampleEnvironment)
      [sampleMessage]).body samplePython (sampleContext "b")).isSome = true := by
    decide
  obtain ⟨tx, hbody⟩ := Option.isSome_iff_exists.mp hsome
  exact ⟨tx, hbody, (work_starts_have_runs_iff hbody).mpr (by decide)⟩

def sampleInitialEvents : List Dict :=
  [[("type", .str "user.message"), ("content", .str "Run report.")]]

/-- The session of a deployment run is committed with a message and without a
work item for it. -/
theorem deployment_run_enqueues_nothing :
    ∃ tx db, (Operation.deploymentRun sampleSeed sampleInitialEvents).body samplePython
        (sampleContext "a") = some tx ∧
      tx.commit (emptyDb sampleSeed) = some db ∧ db.work = [] ∧ ¬ StartsHaveRuns tx := by
  have hsome : (createDeploymentSession samplePython sampleSeed (sampleContext "a")
      sampleInitialEvents).isSome = true := by
    decide
  obtain ⟨db, hcreate⟩ := Option.isSome_iff_exists.mp hsome
  have hempty : db.work = [] :=
    (Created.deployment sampleSeed (sampleContext "a") sampleInitialEvents
      hcreate).work_eq_nil
  rw [createDeploymentSession_eq] at hcreate
  obtain ⟨tx, hbody, hcommit⟩ := Option.bind_eq_some_iff.mp hcreate
  exact ⟨tx, db, hbody, hcommit, hempty, deploymentRun_lacks_run hbody⟩

end ManagedAgents
