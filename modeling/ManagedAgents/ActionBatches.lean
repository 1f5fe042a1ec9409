import ManagedAgents.ActionResults

/-!
# Batches of action results

A request whose events are action results and system messages: when it passes
the checks of `send_events`, what its append loop reports, and what its commit
leaves in the session.
-/

namespace ManagedAgents

open SequencedLog PendingKeys

/-- `action_result_inputs`. -/
def actionResultInputs (inputs : List SessionEventInput) : List SessionEventInput :=
  inputs.filter fun input => input.type ≠ "system.message"

/-- A request to `send_events` with action results and, if it has any other
events, system messages. -/
structure ActionBatch where
  inputs : List SessionEventInput
  environment : Option Environment
  context : Context
  nonempty : actionResultInputs inputs ≠ []
  areResults : ∀ input ∈ actionResultInputs inputs, input.type ∈ ACTION_RESULT_EVENTS

def ActionBatch.results (batch : ActionBatch) : List SessionEventInput :=
  actionResultInputs batch.inputs

def ActionBatch.types (batch : ActionBatch) : List String :=
  batch.inputs.map SessionEventInput.type

def ActionBatch.targets (py : Python) (batch : ActionBatch) : List String :=
  resultTargets py batch.results

theorem ActionBatch.input_type
    {batch : ActionBatch} {input : SessionEventInput} (hinput : input ∈ batch.inputs) :
    input.type = "system.message" ∨ input.type ∈ ACTION_RESULT_EVENTS := by
  by_cases hsystem : input.type = "system.message"
  · exact Or.inl hsystem
  · right
    apply batch.areResults
    exact List.mem_filter.mpr ⟨hinput, by simpa using hsystem⟩

theorem ActionBatch.input_type_ne
    {batch : ActionBatch} {input : SessionEventInput} {eventType : String}
    (hinput : input ∈ batch.inputs) (hsystem : "system.message" ≠ eventType)
    (hresult : eventType ∉ ACTION_RESULT_EVENTS) : input.type ≠ eventType := by
  intro htype
  rcases batch.input_type hinput with hmessage | hmem
  · exact hsystem (hmessage.symm.trans htype)
  · rw [htype] at hmem
    exact hresult hmem

theorem ActionBatch.types_ne (batch : ActionBatch) :
    batch.types ≠ ["user.interrupt"] := by
  intro htypes
  have hmem : "user.interrupt" ∈ batch.types := by
    rw [htypes]
    exact List.mem_singleton.mpr rfl
  obtain ⟨input, hinput, htype⟩ := List.mem_map.mp hmem
  exact batch.input_type_ne hinput (by decide) (by decide) htype

/-! ## The shape of a batch -/

theorem mem_systemIndexes {eventTypes : List String} {index : ℕ} :
    index ∈ systemIndexes eventTypes ↔ eventTypes[index]? = some "system.message" := by
  unfold systemIndexes
  simp only [List.mem_filter, List.mem_range, decide_eq_true_eq, and_iff_right_iff_imp]
  intro hsome
  exact (List.getElem?_eq_some_iff.mp hsome).1

/-- In a batch that passes the shape rules only the last event can be a system
message. -/
theorem systemIndex_of_ok
    {eventTypes : List String} {index : ℕ}
    (hshape : validateSystemMessageBatch eventTypes = .ok ())
    (hindex : index ∈ systemIndexes eventTypes) : index = eventTypes.length - 1 := by
  unfold validateSystemMessageBatch at hshape
  split at hshape
  next hnone =>
    rw [hnone] at hindex
    cases hindex
  next systemIndex hone =>
    rw [hone] at hindex
    obtain rfl := List.mem_singleton.mp hindex
    split at hshape
    · cases hshape
    next hlast => exact not_not.mp hlast
  next => cases hshape

/-- The results come first and a system message, if any, last. -/
theorem inputs_eq_results_append
    {inputs : List SessionEventInput}
    (hshape : validateSystemMessageBatch (inputs.map SessionEventInput.type) =
      .ok ()) :
    ∃ messages, inputs = actionResultInputs inputs ++ messages ∧
      ∀ input ∈ messages, input.type = "system.message" := by
  rcases List.eq_nil_or_concat inputs with rfl | ⟨front, last, rfl⟩
  · exact ⟨[], rfl, by simp⟩
  have hfront : actionResultInputs front = front := by
    apply List.filter_eq_self.mpr
    intro input hinput
    obtain ⟨index, hget⟩ := List.getElem?_of_mem hinput
    have hbound : index < front.length := (List.getElem?_eq_some_iff.mp hget).1
    suffices input.type ≠ "system.message" by simpa using this
    intro hmessage
    have hmem : index ∈
        systemIndexes ((front ++ [last]).map SessionEventInput.type) := by
      rw [mem_systemIndexes, List.getElem?_map,
        List.getElem?_append_left hbound, hget]
      exact congrArg some hmessage
    have hlast := systemIndex_of_ok (by simpa using hshape) hmem
    simp only [List.length_map, List.length_append, List.length_singleton] at hlast
    omega
  by_cases hmessage : last.type = "system.message"
  · refine ⟨[last], ?_, by simpa using hmessage⟩
    unfold actionResultInputs at *
    simpa [List.filter_append, hmessage] using hfront.symm
  · refine ⟨[], ?_, by simp⟩
    unfold actionResultInputs at *
    simpa [List.filter_append, hmessage] using hfront.symm

/-! ## The checks of a batch -/

theorem validateDefineOutcomes_ok
    {py : Python} {inputs : List SessionEventInput}
    (hnone : ∀ input ∈ inputs, input.type ≠ "user.define_outcome") :
    validateDefineOutcomes py inputs = .ok () := by
  induction inputs with
  | nil => rfl
  | cons input rest ih =>
      unfold validateDefineOutcomes
      rw [if_neg (hnone input List.mem_cons_self)]
      exact ih fun other hother => hnone other (List.mem_cons_of_mem _ hother)

theorem ActionBatch.validateEventBatch_iff
    {py : Python} {tx : Tx} (batch : ActionBatch) :
    validateEventBatch py tx batch.inputs = .ok () ↔
      validateSystemMessageBatch batch.types = .ok () ∧
        validateBatchForState py tx batch.inputs = .ok () := by
  have hdefine : validateDefineOutcomes py batch.inputs = .ok () := by
    apply validateDefineOutcomes_ok
    intro input hinput
    exact batch.input_type_ne hinput (by decide) (by decide)
  unfold validateEventBatch ActionBatch.types
  rw [hdefine]
  cases validateSystemMessageBatch (batch.inputs.map SessionEventInput.type) <;> simp

/-- A session that does not wait refuses every batch of results. -/
theorem ActionBatch.refused
    {py : Python} {tx : Tx} (batch : ActionBatch)
    (hwaiting : isWaitingForAction tx.session.stopReason = false) :
    validateBatchForState py tx batch.inputs ≠ .ok () := by
  unfold validateBatchForState
  simp only
  intro hok
  split at hok
  · split at hok
    next htypes => exact batch.types_ne htypes
    next => cases hok
  · rw [hwaiting] at hok
    simp only [Bool.false_eq_true, if_false] at hok
    split at hok
    · cases hok
    next hnone =>
      obtain ⟨input, hinput⟩ := List.exists_mem_of_ne_nil _ batch.nonempty
      apply hnone
      exact ⟨input.type, List.mem_map_of_mem (List.mem_filter.mp hinput).1,
        batch.areResults input hinput⟩

/-- A waiting session accepts the results which are acceptable on the first
rows of its log. -/
theorem ActionBatch.validateBatchForState_iff
    {py : Python} {tx : Tx} {pendingIds : List String} (batch : ActionBatch)
    (hidle : tx.session.status = .idle)
    (hwaits : tx.session.stopReason = some (.requiresAction pendingIds))
    (hlog : GapFree SessionEvent.seq tx.events)
    (hids : (tx.events.map SessionEvent.id).Nodup) :
    validateBatchForState py tx batch.inputs = .ok () ↔
      AcceptableResults py (unanswered py pendingIds (actionPage tx.events))
        (actionPage tx.events) batch.results := by
  have hpageIds : ((actionPage tx.events).map SessionEvent.id).Nodup := by
    unfold actionPage
    rw [List.map_take]
    exact hids.sublist (List.take_sublist _ _)
  have hresults : ¬ (batch.results = [] ∨
      ¬ ∀ input ∈ batch.results, input.type ∈ ACTION_RESULT_EVENTS) := by
    rw [not_or, not_not]
    exact ⟨batch.nonempty, batch.areResults⟩
  have hstate : validateBatchForState py tx batch.inputs =
      validateActionResults py tx batch.results := by
    unfold validateBatchForState
    rw [hidle, hwaits]
    simp only [ACTIVE_STATUSES, List.mem_cons, reduceCtorEq, List.not_mem_nil,
      or_false, if_false, isWaitingForAction_requiresAction, if_true]
    have htypes : batch.inputs.map SessionEventInput.type ≠ ["user.interrupt"] :=
      batch.types_ne
    rw [if_neg htypes]
    exact if_neg hresults
  rw [hstate]
  unfold validateActionResults
  simp only
  rw [hwaits, listEvents_eq_take hlog]
  have hloop := @validateActionResultsLoop_ok_iff py (actionPage tx.events)
    pendingIds (resolvedActionIds py (actionPage tx.events)) [] batch.results
    hpageIds batch.areResults
  rw [settle_nil] at hloop
  exact hloop

/-! ## The append loop on a batch -/

theorem sendLoop_append
    (py : Python) (tx : Tx) (flags : SendFlags) (front back : List SessionEventInput) :
    sendLoop py tx flags (front ++ back) =
      sendLoop py (sendLoop py tx flags front).1 (sendLoop py tx flags front).2
        back := by
  induction front generalizing tx flags with
  | nil => rfl
  | cons input rest ih =>
      simp only [List.cons_append, sendLoop]
      exact ih _ _

/-- The stored events name the targets of their inputs. -/
theorem sendLoop_targets
    (py : Python) (tx : Tx) (flags : SendFlags) (inputs : List SessionEventInput) :
    (sendLoop py tx flags inputs).1.appended.map (SessionEvent.target py) =
      tx.appended.map (SessionEvent.target py) ++
        inputs.map (SessionEventInput.target py) := by
  induction inputs generalizing tx flags with
  | nil => simp [sendLoop]
  | cons input rest ih =>
      have hcustom := @normalizePayload_get "custom_tool_use_id" py
        tx.context.now input.type input.payload (by decide) (by decide)
      have htool := @normalizePayload_get "tool_use_id" py
        tx.context.now input.type input.payload (by decide) (by decide)
      have hnew : (tx.newEvent py .client input.type input.payload).target py =
          input.target py := by
        simp only [SessionEvent.target, SessionEventInput.target, Tx.newEvent,
          actionResultTarget, hcustom, htool]
      unfold sendLoop
      rw [ih]
      simp [appendEvent, hnew]

theorem sendLoop_systemMessages
    {py : Python} {tx : Tx} {flags : SendFlags} {messages : List SessionEventInput}
    (hmessages : ∀ input ∈ messages, input.type = "system.message") :
    (sendLoop py tx flags messages).2 = flags := by
  induction messages generalizing tx flags with
  | nil => rfl
  | cons input rest ih =>
      have htype := hmessages input List.mem_cons_self
      have hrest := fun other hother => hmessages other (List.mem_cons_of_mem _ hother)
      unfold sendLoop
      simp only
      rw [ih hrest, htype]
      rfl

/-- After a result the flags tell whether every pending action is resolved. -/
theorem sendLoop_result
    {py : Python} {tx : Tx} {flags : SendFlags} {input : SessionEventInput}
    (hresult : input.type ∈ ACTION_RESULT_EVENTS) :
    sendLoop py tx flags [input] =
      (appendEvent py tx .client input.type input.payload,
        { flags with
          shouldRun := allPendingActionsResolved py
            (appendEvent py tx .client input.type input.payload)
          resolvedRequiredActions := allPendingActionsResolved py
            (appendEvent py tx .client input.type input.payload) }) := by
  simp only [ACTION_RESULT_EVENTS, List.mem_cons, List.not_mem_nil, or_false]
    at hresult
  rcases hresult with htype | htype | htype
  · simp [sendLoop, htype]
  · simp [sendLoop, htype]
  · simp [sendLoop, htype]

theorem allPendingActionsResolved_iff
    {py : Python} {tx : Tx} {pendingIds : List String}
    (hwaits : tx.session.stopReason = some (.requiresAction pendingIds))
    (hne : pendingIds ≠ []) (hlog : GapFree SessionEvent.seq tx.events) :
    allPendingActionsResolved py tx = true ↔
      unanswered py pendingIds (actionPage tx.events) = ∅ := by
  unfold allPendingActionsResolved
  rw [hwaits, listEvents_eq_take hlog]
  simp only [pendingActionIds, hne, if_false, List.all_eq_true, decide_eq_true_eq]
  rw [Finset.eq_empty_iff_forall_notMem]
  unfold unanswered actionPage
  simp

theorem sendLoop_ids
    {py : Python} {tx : Tx} (htx : tx.enqueued = []) (flags : SendFlags)
    (inputs : List SessionEventInput) :
    (sendLoop py tx flags inputs).1.appended.map SessionEvent.id =
      tx.appended.map SessionEvent.id ++
        (List.range' tx.appended.length inputs.length).map fun index =>
          "evt" ++ "_" ++ tx.context.uuid index := by
  induction inputs generalizing tx flags with
  | nil => simp [sendLoop]
  | cons input rest ih =>
      unfold sendLoop
      rw [ih (by exact htx)]
      simp [appendEvent, Tx.newEvent, Tx.newId, htx, List.range'_succ]

/-- After the results of a batch both flags tell whether every pending action
is resolved. -/
theorem ActionBatch.sendLoop_results
    (py : Python) (tx : Tx) (batch : ActionBatch) :
    (sendLoop py tx {} batch.results).2 =
      ⟨allPendingActionsResolved py (sendLoop py tx {} batch.results).1, false,
        allPendingActionsResolved py (sendLoop py tx {} batch.results).1⟩ := by
  obtain ⟨front, last, hlast⟩ :=
    (List.eq_nil_or_concat batch.results).resolve_left batch.nonempty
  rw [List.concat_eq_append] at hlast
  have hmem : last ∈ batch.results := by
    rw [hlast]
    exact List.mem_append_right _ (List.mem_singleton.mpr rfl)
  have hfront : (sendLoop py tx {} front).2.shouldInterrupt = false := by
    rw [sendLoop_shouldInterrupt, Bool.false_or]
    apply List.any_eq_false.mpr
    intro input hinput
    have hinputs : input ∈ batch.inputs := by
      have hresults : input ∈ batch.results := by
        rw [hlast]
        exact List.mem_append_left _ hinput
      exact (List.mem_filter.mp hresults).1
    simpa using batch.input_type_ne hinputs (by decide) (by decide)
  rw [hlast, sendLoop_append, sendLoop_result (batch.areResults last hmem)]
  simp [hfront]

/-- The append loop on a batch that passes the shape rules: the answers come
first, and the flags tell whether the first rows of the log, up to the last
answer, resolve every pending action. -/
theorem ActionBatch.sendLoop_spec
    (py : Python) {db : Db} {pendingIds : List String} (batch : ActionBatch)
    (hshape : validateSystemMessageBatch batch.types = .ok ())
    (hwellFormed : WellFormed db)
    (hwaits : db.session.stopReason = some (.requiresAction pendingIds))
    (hne : pendingIds ≠ []) :
    ∃ answers messages resolved,
      Appends (Tx.begin db batch.context)
        (sendLoop py (Tx.begin db batch.context) {} batch.inputs).1
        (answers ++ messages) ∧
      answers.map (SessionEvent.target py) =
        batch.results.map (SessionEventInput.target py) ∧
      resolvedActionIds py messages = [] ∧
      (sendLoop py (Tx.begin db batch.context) {} batch.inputs).2 =
        ⟨resolved, false, resolved⟩ ∧
      (resolved = true ↔
        unanswered py pendingIds (actionPage (db.events ++ answers)) = ∅) := by
  obtain ⟨tail, hinputs, htail⟩ := inputs_eq_results_append hshape
  change batch.inputs = batch.results ++ tail at hinputs
  cases hsent : sendLoop py (Tx.begin db batch.context) {} batch.results with
  | mk middle flags =>
  obtain ⟨answers, hanswers, -, -⟩ :=
    sendLoop_appends py (Tx.begin db batch.context) {} batch.results
  have hanswerTargets :=
    sendLoop_targets py (Tx.begin db batch.context) {} batch.results
  have hflags := batch.sendLoop_results py (Tx.begin db batch.context)
  simp only [hsent] at hanswers hanswerTargets hflags
  obtain ⟨messages, hmessages, -, -⟩ := sendLoop_appends py middle flags tail
  have hmessageTargets := sendLoop_targets py middle flags tail
  rw [hanswers.appended] at hanswerTargets
  rw [hmessages.appended, List.map_append, List.append_cancel_left_eq]
    at hmessageTargets
  have hlog : GapFree SessionEvent.seq (db.events ++ answers) := by
    apply hwellFormed.gapFree.append
    rw [Nat.zero_add, ← hwellFormed.counter]
    exact hanswers.numbered
  have hevents : middle.events = db.events ++ answers := by
    unfold Tx.events
    rw [hanswers.snapshot, hanswers.appended]
    rfl
  have hstopReason : middle.session.stopReason =
      some (.requiresAction pendingIds) := by
    rw [hanswers.session]
    exact hwaits
  have hresolved : allPendingActionsResolved py middle = true ↔
      unanswered py pendingIds (actionPage (db.events ++ answers)) = ∅ := by
    rw [← hevents]
    apply allPendingActionsResolved_iff hstopReason hne
    rw [hevents]
    exact hlog
  rw [hinputs, sendLoop_append, hsent]
  refine ⟨answers, messages, _, hanswers.trans hmessages, ?_, ?_, ?_, hresolved⟩
  · simpa using hanswerTargets
  · apply List.filterMap_eq_nil_iff.mpr
    intro event hevent
    have hmem : event.target py ∈ tail.map (SessionEventInput.target py) := by
      rw [← hmessageTargets]
      exact List.mem_map_of_mem hevent
    obtain ⟨input, hinput, hsame⟩ := List.mem_map.mp hmem
    change event.target py = none
    rw [← hsame]
    simp [SessionEventInput.target, actionResultTarget, htail input hinput,
      Json.truthy]
  · rw [sendLoop_systemMessages htail, hflags]

/-! ## Committing a batch -/

/-- The database after the request, unless it is refused. -/
def sendBatch (py : Python) (db : Db) (batch : ActionBatch) : Option Db :=
  (sendEvents py batch.environment batch.inputs
    (Tx.begin db batch.context)).toOption.bind fun tx => tx.commit db

/-- `uuid4` returns ids that are not in use. -/
structure FreshIds (db : Db) (batch : ActionBatch) : Prop where
  distinct : ((List.range batch.inputs.length).map batch.context.uuid).Nodup
  events : ∀ index < batch.inputs.length, ∀ event ∈ db.events,
    event.id ≠ "evt" ++ "_" ++ batch.context.uuid index
  work : ∀ item ∈ db.work,
    item.id ≠ "work" ++ "_" ++ batch.context.uuid batch.inputs.length

/-- What an accepted batch leaves. -/
structure Recorded (py : Python) (pendingIds : List String) (db : Db)
    (batch : ActionBatch) (answers : List SessionEvent) (next : Db) : Prop where
  wellFormed : WellFormed next
  events : ∃ messages, next.events = db.events ++ answers ++ messages ∧
    resolvedActionIds py messages = []
  targets : answers.map (SessionEvent.target py) =
    batch.results.map (SessionEventInput.target py)
  idle : next.session.status = .idle
  live : next.session.deletedAt = none
  resumed : unanswered py pendingIds (actionPage (db.events ++ answers)) = ∅ →
    next.session.stopReason = some .actionSubmitted ∧
      ∃ item, next.work = db.work ++ [item]
  waits : unanswered py pendingIds (actionPage (db.events ++ answers)) ≠ ∅ →
    next.session.stopReason = some (.requiresAction pendingIds) ∧
      next.work = db.work

theorem FreshIds.not_violates
    {db : Db} {batch : ActionBatch} {tx : Tx}
    (hfresh : FreshIds db batch) (hwellFormed : WellFormed db)
    (hnumbered : NumberedFrom SessionEvent.seq db.session.lastEventSeq tx.appended)
    (hids : tx.appended.map SessionEvent.id =
      (List.range batch.inputs.length).map fun index =>
        "evt" ++ "_" ++ batch.context.uuid index)
    (henqueued : ∀ item ∈ tx.enqueued,
      item.id = "work" ++ "_" ++ batch.context.uuid batch.inputs.length) :
    ¬ tx.Violates db := by
  have huuids : FreshUuids db batch.context batch.inputs.length :=
    ⟨hfresh.distinct, hfresh.events⟩
  apply huuids.not_violates hwellFormed hnumbered hids
  rintro ⟨item, hitem, old, hold, heq⟩
  exact hfresh.work old hold (heq.symm.trans (henqueued item hitem))

/-- With fresh ids, a transaction on the state it read commits all it wrote. -/
theorem FreshIds.commit
    {db : Db} {batch : ActionBatch} {tx : Tx}
    (hfresh : FreshIds db batch) (hwellFormed : WellFormed db)
    (hsnapshot : tx.snapshot = db) (hsequenced : Sequenced tx)
    (hids : tx.appended.map SessionEvent.id =
      (List.range batch.inputs.length).map fun index =>
        "evt" ++ "_" ++ batch.context.uuid index)
    (henqueued : ∀ item ∈ tx.enqueued,
      item.id = "work" ++ "_" ++ batch.context.uuid batch.inputs.length) :
    ∃ next, tx.commit db = some next ∧ WellFormed next ∧
      next.events = db.events ++ tx.appended ∧
      next.work = db.work ++ tx.enqueued ∧
      next.session.control = tx.session.control := by
  subst hsnapshot
  have hkeeps := hfresh.not_violates hwellFormed hsequenced.numbered hids henqueued
  have hcommit := Tx.commit_eq_some.mpr ⟨hkeeps, rfl⟩
  refine ⟨_, hcommit, ?_, rfl, rfl, flushSession_control rfl⟩
  exact hsequenced.commit_wellFormed hwellFormed hwellFormed List.prefix_rfl hcommit

/-- A valid batch for a live, idle session is committed as the loop over its
inputs leaves it. -/
theorem ActionBatch.sendBatch_eq
    {py : Python} {db : Db} {batch : ActionBatch} {middle : Tx} {flags : SendFlags}
    (hidle : db.session.status = .idle)
    (hlive : db.session.deletedAt = none)
    (harchived : db.session.archivedAt = none)
    (henvironment : Environment.live batch.environment = true)
    (hvalid : validateEventBatch py (Tx.begin db batch.context) batch.inputs =
      .ok ())
    (hsent : sendLoop py (Tx.begin db batch.context) {} batch.inputs =
      (middle, flags)) :
    sendBatch py db batch = (settleSend py middle flags).commit db := by
  have hopen : (Tx.begin db batch.context).session.status ≠ .terminated := by
    simp [hidle]
  have hok : sendEvents py batch.environment batch.inputs
      (Tx.begin db batch.context) = .ok (settleSend py middle flags) := by
    apply sendEvents_ok_iff.mpr
    exact ⟨⟨hlive, harchived, hopen, henvironment⟩, hvalid, by rw [hsent]⟩
  unfold sendBatch
  rw [hok]
  rfl

/-- A batch which resolved every action enqueues one run. -/
theorem settleSend_resolved_enqueued
    (py : Python) (tx : Tx) :
    ∃ item, (settleSend py tx ⟨true, false, true⟩).enqueued =
        tx.enqueued ++ [item] ∧
      item.id = tx.newId "work" := by
  simp only [settleSend, enqueueSessionRun, updateSession, Bool.false_eq_true,
    if_false, if_true]
  exact ⟨_, rfl, rfl⟩

/-- A batch which passes the checks of a waiting session is committed. -/
theorem ActionBatch.recorded
    {py : Python} {db : Db} {pendingIds : List String} (batch : ActionBatch)
    (hfresh : FreshIds db batch) (hwellFormed : WellFormed db)
    (hcontrol : db.session.control = ⟨.idle, some (.requiresAction pendingIds), none⟩)
    (hne : pendingIds ≠ [])
    (harchived : db.session.archivedAt = none)
    (henvironment : Environment.live batch.environment = true)
    (hvalid : validateEventBatch py (Tx.begin db batch.context) batch.inputs =
      .ok ()) :
    ∃ answers next, sendBatch py db batch = some next ∧
      Recorded py pendingIds db batch answers next := by
  have hidle : db.session.status = .idle := congrArg Control.status hcontrol
  have hlive : db.session.deletedAt = none := congrArg Control.deletedAt hcontrol
  have hwaits : db.session.stopReason = some (.requiresAction pendingIds) :=
    congrArg Control.stopReason hcontrol
  have hshape := (batch.validateEventBatch_iff.mp hvalid).1
  obtain ⟨answers, messages, resolved, happends, htargets, hmessages, hflags,
    hresolved⟩ := batch.sendLoop_spec py hshape hwellFormed hwaits hne
  have hids := @sendLoop_ids py (Tx.begin db batch.context) rfl {} batch.inputs
  cases hsent : sendLoop py (Tx.begin db batch.context) {} batch.inputs with
  | mk middle flags =>
  simp only [hsent] at happends hflags hids
  subst hflags
  have hmiddleIds : middle.appended.map SessionEvent.id =
      (List.range batch.inputs.length).map fun index =>
        "evt" ++ "_" ++ batch.context.uuid index := by
    simpa [List.range_eq_range'] using hids
  have hlength : middle.appended.length = batch.inputs.length := by
    simpa using congrArg List.length hmiddleIds
  have hsequenced : Sequenced middle :=
    (Sequenced.begin db batch.context).appends happends
  have henqueued : middle.enqueued = [] := happends.enqueued
  have hmiddleControl := happends.control.trans hcontrol
  have hsend : sendBatch py db batch =
      (settleSend py middle ⟨resolved, false, resolved⟩).commit db :=
    ActionBatch.sendBatch_eq hidle hlive harchived henvironment hvalid hsent
  have hadded : db.events ++ middle.appended = db.events ++ answers ++ messages := by
    rw [happends.appended, List.append_assoc]
    rfl
  rw [hsend]
  cases resolved with
  | true =>
      have hall := hresolved.mp rfl
      obtain ⟨item, hitems, hitem⟩ := settleSend_resolved_enqueued py middle
      rw [henqueued, List.nil_append] at hitems
      have hwork : ∀ queued ∈ (settleSend py middle ⟨true, false, true⟩).enqueued,
          queued.id = "work" ++ "_" ++ batch.context.uuid batch.inputs.length := by
        intro queued hqueued
        rw [hitems, List.mem_singleton] at hqueued
        rw [hqueued, hitem]
        simp [Tx.newId, hlength, henqueued, happends.context]
      obtain ⟨next, hcommit, hnext, hevents, hqueue, hnextControl⟩ :=
        @FreshIds.commit db batch (settleSend py middle ⟨true, false, true⟩)
          hfresh hwellFormed happends.snapshot (hsequenced.of_eq rfl rfl rfl)
          hmiddleIds hwork
      have hsubmitted : next.session.control =
          ⟨.idle, some .actionSubmitted, middle.session.deletedAt⟩ := hnextControl
      refine ⟨answers, next, hcommit, hnext, ?_, htargets, ?_, ?_, ?_, ?_⟩
      · exact ⟨messages, hevents.trans hadded, hmessages⟩
      · exact congrArg Control.status hsubmitted
      · exact (congrArg Control.deletedAt hsubmitted).trans
          (congrArg Control.deletedAt hmiddleControl)
      · intro _
        refine ⟨congrArg Control.stopReason hsubmitted, ?_⟩
        exact ⟨item, by rw [hqueue, hitems]⟩
      · intro hopen
        exact absurd hall hopen
  | false =>
      have hopen : unanswered py pendingIds (actionPage (db.events ++ answers)) ≠ ∅ :=
        fun hall => Bool.false_ne_true (hresolved.mpr hall)
      obtain ⟨next, hcommit, hnext, hevents, hqueue, hnextControl⟩ :=
        @FreshIds.commit db batch middle hfresh hwellFormed happends.snapshot
          hsequenced hmiddleIds (by simp [henqueued])
      have hkept := hnextControl.trans hmiddleControl
      refine ⟨answers, next, hcommit, hnext, ?_, htargets, ?_, ?_, ?_, ?_⟩
      · exact ⟨messages, hevents.trans hadded, hmessages⟩
      · exact congrArg Control.status hkept
      · exact congrArg Control.deletedAt hkept
      · intro hall
        exact absurd hall hopen
      · intro _
        refine ⟨congrArg Control.stopReason hkept, ?_⟩
        rw [hqueue, henqueued, List.append_nil]

end ManagedAgents
