import ManagedAgents.Transactions

/-!
# What a session transaction can do

One statement for each transaction says how its body changes the status, the
stop reason and the deletion mark of the session, and whether its events
announce that change.  Every invariant of the session is derived from these
statements; no later file unfolds a handler to find out what it does to them.
-/

namespace ManagedAgents

open SequencedLog

/-! ## Columns -/

/-- The columns of the session's state machine. -/
structure Control where
  status : SessionStatus
  stopReason : Option StopReason
  deletedAt : Option Time
deriving DecidableEq

def ManagedSession.control (session : ManagedSession) : Control where
  status := session.status
  stopReason := session.stopReason
  deletedAt := session.deletedAt

/-- The columns which only transactions with events write. -/
def ManagedSession.fenced (session : ManagedSession) : ManagedSession :=
  { session with statusDetails := {}, archivedAt := none }

theorem ManagedSession.column_of_fenced
    {α : Type*} {left right : ManagedSession} (column : ManagedSession → α)
    (hcolumn : ∀ session, column session.fenced = column session)
    (hfenced : left.fenced = right.fenced) :
    column left = column right := by
  rw [← hcolumn left, hfenced, hcolumn right]

theorem ManagedSession.control_of_fenced
    {left right : ManagedSession} (hfenced : left.fenced = right.fenced) :
    left.control = right.control :=
  ManagedSession.column_of_fenced ManagedSession.control (fun _ => rfl) hfenced

/-! ## Status events -/

def statusEventType : SessionStatus → String
  | .idle => "session.status_idle"
  | .running => "session.status_running"
  | .rescheduling => "session.status_rescheduled"
  | .terminated => "session.status_terminated"

/-- The status which an event type names. -/
def statusNamed (eventType : String) : Option SessionStatus :=
  if eventType = "session.status_idle" then some .idle
  else if eventType = "session.status_running" then some .running
  else if eventType = "session.status_rescheduled" then some .rescheduling
  else if eventType = "session.status_terminated" then some .terminated
  else none

@[simp] theorem statusNamed_statusEventType (status : SessionStatus) :
    statusNamed (statusEventType status) = some status := by
  cases status <;> rfl

/-- A status event which the server appended itself. -/
def isStatusEvent (event : SessionEvent) : Bool :=
  event.origin = .server && (statusNamed event.type).isSome

theorem isStatusEvent_eq_false_of_client
    {event : SessionEvent} (horigin : event.origin = .client) :
    isStatusEvent event = false := by
  simp [isStatusEvent, horigin]

theorem isStatusEvent_eq_false_of_type
    {event : SessionEvent} (htype : statusNamed event.type = none) :
    isStatusEvent event = false := by
  simp [isStatusEvent, htype]

/-- The event names the status of the row, and its stop reason if it has one. -/
structure Names (py : Python) (session : ManagedSession) (event : SessionEvent) :
    Prop where
  origin : event.origin = .server
  type : event.type = statusEventType session.status
  stopReason : Dict.get event.payload "stop_reason" = .null ∨
    ∃ reason, session.stopReason = some reason ∧
      Dict.get event.payload "stop_reason" = reason.toJson py

/-- The last of the new events names the state of the row. -/
def Announces (py : Python) (session : ManagedSession)
    (appended : List SessionEvent) : Prop :=
  ∃ front last, appended = front ++ [last] ∧ Names py session last

theorem normalizePayload_get
    {key : String} (py : Python) (now : Time) (eventType : String)
    (payload : Dict) (htype : "type" ≠ key) (hprocessed : "processed_at" ≠ key) :
    Dict.get (normalizePayload py now eventType payload) key =
      Dict.get payload key := by
  unfold normalizePayload
  rw [Dict.get_set_other _ hprocessed, Dict.get_setdefault_other _ htype]

theorem newEvent_names
    {py : Python} {tx : Tx} {session : ManagedSession} {eventType : String}
    {payload : Dict}
    (htype : eventType = statusEventType session.status)
    (hreason : Dict.get payload "stop_reason" = .null ∨
      ∃ reason, session.stopReason = some reason ∧
        Dict.get payload "stop_reason" = reason.toJson py) :
    Names py session (tx.newEvent py .server eventType payload) where
  origin := rfl
  type := htype
  stopReason := by
    have hget : Dict.get (tx.newEvent py .server eventType payload).payload
        "stop_reason" = Dict.get payload "stop_reason" :=
      normalizePayload_get py tx.context.now eventType payload (by decide)
        (by decide)
    rw [hget]
    exact hreason

/-! ## Effects -/

def hasInterrupt (inputs : List SessionEventInput) : Bool :=
  inputs.any fun input => input.type = "user.interrupt"

def hasWorkStart (inputs : List SessionEventInput) : Bool :=
  inputs.any fun input => startsWork input.type

/-- The transactions which may commit without a change of the state machine. -/
def Transaction.keepsControl : Transaction → Prop
  | .request (.updateSession _ _) => True
  | .request .archiveSession => True
  | .request (.resumeSession _) => True
  | .request (.archiveSessionThread _ _) => True
  | .request (.sendEvents _ inputs) => hasInterrupt inputs = false
  | .load _ => True
  | _ => False

/-- The events of a result which the session waits for. -/
structure Blocks (result : RuntimeResult) (appended blocked : List SessionEvent) :
    Prop where
  sublist : blocked.Sublist appended
  toolUse : ∀ event ∈ blocked, event.type ∈ TOOL_USE_EVENTS
  ids : ∀ event ∈ blocked, event.id ≠ ""
  nonempty :
    (∃ toolEvent ∈ result.toolEvents,
      isRequiredActionEvent result toolEvent
        (result.toolEvents.any requiresConfirmation) = true) → blocked ≠ []

/-- How a transaction that read `before` wants to leave the session, and the
events it appends. -/
inductive Effect (py : Python) (before after : ManagedSession)
    (appended : List SessionEvent) : Transaction → Prop
  | kept {transaction : Transaction}
      (hkeeps : transaction.keepsControl)
      (hcontrol : after.control = before.control)
      (hevents : ∀ event ∈ appended, isStatusEvent event = false) :
      Effect py before after appended transaction
  | interrupted {environment : Option Environment}
      {inputs : List SessionEventInput}
      (hinterrupt : hasInterrupt inputs = true)
      (hdeletedAt : before.deletedAt = none)
      (hopen : before.status ≠ .terminated)
      (hcontrol : after.control = ⟨.idle, some .interrupted, none⟩)
      (hannounces : Announces py after appended) :
      Effect py before after appended (.request (.sendEvents environment inputs))
  | actionSubmitted {environment : Option Environment}
      {inputs : List SessionEventInput}
      (hinterrupt : hasInterrupt inputs = false)
      (hdeletedAt : before.deletedAt = none)
      (hidle : before.status = .idle)
      (hwaiting : isWaitingForAction before.stopReason = true)
      (hcontrol : after.control = ⟨.idle, some .actionSubmitted, none⟩)
      (hevents : ∀ event ∈ appended, isStatusEvent event = false) :
      Effect py before after appended (.request (.sendEvents environment inputs))
  | deleted
      (hdeletedAt : before.deletedAt = none)
      (hinactive : blocksMutation before.status = false)
      (hstatus : after.status = .terminated)
      (hstopReason : after.stopReason = before.stopReason)
      (hmarked : after.deletedAt.isSome = true) :
      Effect py before after appended (.request .deleteSession)
  | cancelled
      (hdeletedAt : before.deletedAt = none)
      (hcontrol : after.control = ⟨.terminated, some .cancelled, none⟩)
      (hannounces : Announces py after appended) :
      Effect py before after appended (.request .cancelSession)
  | started
      (hdeletedAt : before.deletedAt = none)
      (hcanStart : canStartWork before.status before.stopReason = true)
      (hcontrol : after.control = ⟨.running, some .inProgress, none⟩)
      (hannounces : Announces py after appended) :
      Effect py before after appended .start
  | concluded {history : List SessionEvent} {result : RuntimeResult}
      {reason : StopReason}
      (hrunning : before.status = .running)
      (hwaiting : isWaitingForAction before.stopReason = false)
      (hreason : reason = .endTurn ∨
        result.requiresAction = true ∧
          ∃ blocked, reason = .requiresAction (blocked.map SessionEvent.id) ∧
            Blocks result appended blocked)
      (hcontrol : after.control = ⟨.idle, some reason, before.deletedAt⟩)
      (hannounces : Announces py after appended) :
      Effect py before after appended (.outcome history result)
  | rescheduled {exc : PyException} {reason : StopReason}
      (htransient : isTransientRuntimeError py exc = .ok true)
      (hattempt : nextAttempt before.statusDetails < MAX_TRANSIENT_RETRY_ATTEMPTS)
      (hreason : reason.typeName = "transient_error")
      (hcontrol : after.control = ⟨.rescheduling, some reason, before.deletedAt⟩)
      (hannounces : Announces py after appended) :
      Effect py before after appended (.failure exc)
  | failed {exc : PyException} {reason : StopReason}
      (hreason : reason.typeName = "error")
      (hcontrol : after.control = ⟨.terminated, some reason, before.deletedAt⟩)
      (hannounces : Announces py after appended) :
      Effect py before after appended (.failure exc)

/-- The discipline which every body keeps on the side: it is sequenced, and
without events it leaves the fenced columns alone. -/
structure Disciplined (snapshot : Db) (tx : Tx) : Prop where
  snapshot_eq : tx.snapshot = snapshot
  sequenced : Sequenced tx
  quiet : tx.appended = [] → tx.session.fenced = snapshot.session.fenced

theorem Announces.ne_nil
    {py : Python} {session : ManagedSession} {appended : List SessionEvent}
    (hannounces : Announces py session appended) : appended ≠ [] := by
  obtain ⟨front, last, rfl, -⟩ := hannounces
  simp


/-! ## The effect of each request -/

section

variable {py : Python} {snapshot : Db} {context : Context} {tx : Tx}

theorem sessionUpdateOf_control
    {session : ManagedSession} {version : Option AgentVersion}
    {body : SessionUpdateRequest} {update : SessionUpdate}
    (hupdate : sessionUpdateOf py session version body = .ok update) :
    update.status = none ∧ update.stopReason = none := by
  unfold sessionUpdateOf at hupdate
  simp only [bind, Except.bind, pure, Except.pure, throw, throwThe,
    MonadExceptOf.throw] at hupdate
  repeat' split at hupdate
  all_goals try cases hupdate
  all_goals exact ⟨rfl, rfl⟩

theorem updateSessionRequest_effect
    {response : ResponseContext} {body : SessionUpdateRequest}
    (htx : updateSessionRequest py response body (Tx.begin snapshot context) =
      .ok tx) :
    Effect py snapshot.session tx.session tx.appended
        (.request (.updateSession response body)) ∧
      Disciplined snapshot tx := by
  unfold updateSessionRequest at htx
  cases hupdate : sessionUpdateOf py (Tx.begin snapshot context).session
      response.version body with
  | error error =>
      rw [hupdate] at htx
      cases htx
  | ok update =>
      rw [hupdate] at htx
      cases htx
      obtain ⟨hstatus, hstopReason⟩ := sessionUpdateOf_control hupdate
      constructor
      · apply Effect.kept
        · trivial
        · simp [ManagedSession.control, appendEvent, updateSession, Tx.begin,
            hstatus, hstopReason]
        · intro event hevent
          obtain rfl : event = _ := List.mem_singleton.mp hevent
          exact isStatusEvent_eq_false_of_type rfl
      · constructor
        · rfl
        · exact ((Sequenced.begin snapshot context).updateSession update).appendEvent
            _ _ _ _
        · intro happended
          simp [appendEvent] at happended

theorem archiveSession_effect
    (htx : archiveSession (Tx.begin snapshot context) = .ok tx) :
    Effect py snapshot.session tx.session tx.appended (.request .archiveSession) ∧
      Disciplined snapshot tx := by
  unfold archiveSession at htx
  split at htx
  · cases htx
  · split at htx
    · cases htx
    · cases htx
      constructor
      · apply Effect.kept
        · trivial
        · rfl
        · intro event hevent
          cases hevent
      · constructor
        · rfl
        · exact (Sequenced.begin snapshot context).of_eq rfl rfl rfl
        · intro _
          rfl

theorem deleteSession_effect
    (htx : deleteSession py (Tx.begin snapshot context) = .ok tx) :
    Effect py snapshot.session tx.session tx.appended (.request .deleteSession) ∧
      Disciplined snapshot tx := by
  unfold deleteSession at htx
  split at htx
  · cases htx
  · next hdeletedAt =>
      split at htx
      · cases htx
      · next hinactive =>
          cases htx
          constructor
          · apply Effect.deleted
            · simpa using hdeletedAt
            · simpa only [Tx.begin_session, Bool.not_eq_true] using hinactive
            · rfl
            · rfl
            · rfl
          · constructor
            · rfl
            · have hmarked : Sequenced (markDeleted (Tx.begin snapshot context)) :=
                (Sequenced.begin snapshot context).of_eq rfl rfl rfl
              exact hmarked.appendEvent _ _ _ _
            · intro happended
              simp [appendEvent] at happended

theorem cancelSession_effect
    (htx : cancelSession py (Tx.begin snapshot context) = .ok tx) :
    Effect py snapshot.session tx.session tx.appended (.request .cancelSession) ∧
      Disciplined snapshot tx := by
  unfold cancelSession at htx
  split at htx
  · cases htx
  · next hdeletedAt =>
      have hnone : snapshot.session.deletedAt = none := by simpa using hdeletedAt
      cases htx
      constructor
      · apply Effect.cancelled hnone
        · change Control.mk _ _ snapshot.session.deletedAt = _
          rw [hnone]
          rfl
        · refine ⟨[], _, rfl, newEvent_names rfl (Or.inr ⟨.cancelled, rfl, rfl⟩)⟩
      · constructor
        · rfl
        · exact ((Sequenced.begin snapshot context).updateSession _).appendEvent
            _ _ _ _
        · intro happended
          simp [appendEvent] at happended

theorem resumeSession_effect
    {environment : Option Environment}
    (htx : resumeSession environment (Tx.begin snapshot context) = .ok tx) :
    Effect py snapshot.session tx.session tx.appended
        (.request (.resumeSession environment)) ∧
      Disciplined snapshot tx := by
  unfold resumeSession at htx
  repeat' split at htx
  all_goals try cases htx
  constructor
  · apply Effect.kept
    · trivial
    · rfl
    · intro event hevent
      cases hevent
  · constructor
    · rfl
    · exact (Sequenced.begin snapshot context).of_eq rfl rfl rfl
    · intro _
      rfl

theorem archiveSessionThread_effect
    {threadId : String} {threadExists : Bool}
    (htx : archiveSessionThread threadId threadExists (Tx.begin snapshot context) =
      .ok tx) :
    Effect py snapshot.session tx.session tx.appended
        (.request (.archiveSessionThread threadId threadExists)) ∧
      Disciplined snapshot tx := by
  unfold archiveSessionThread at htx
  split at htx
  · cases htx
  · split at htx
    · cases htx
      constructor
      · apply Effect.kept
        · trivial
        · rfl
        · intro event hevent
          cases hevent
      · constructor
        · rfl
        · exact (Sequenced.begin snapshot context).of_eq rfl rfl rfl
        · intro _
          rfl
    · split at htx
      · cases htx
        constructor
        · apply Effect.kept
          · trivial
          · rfl
          · intro event hevent
            cases hevent
        · constructor
          · rfl
          · exact Sequenced.begin snapshot context
          · intro _
            rfl
      · cases htx

end


/-! ## The effect of sending events -/

theorem sendLoop_shouldInterrupt
    (py : Python) (tx : Tx) (flags : SendFlags) (inputs : List SessionEventInput) :
    (sendLoop py tx flags inputs).2.shouldInterrupt =
      (flags.shouldInterrupt || hasInterrupt inputs) := by
  induction inputs generalizing tx flags with
  | nil => simp [sendLoop, hasInterrupt]
  | cons input rest ih =>
      unfold sendLoop
      rw [ih]
      by_cases hinterrupt : input.type = "user.interrupt"
      · simp [hinterrupt, hasInterrupt]
      · simp only [hinterrupt, if_false, hasInterrupt, List.any_cons,
          decide_false, Bool.false_or]
        split
        · rfl
        · split <;> rfl

theorem allPendingActionsResolved_waiting
    {py : Python} {tx : Tx} (hresolved : allPendingActionsResolved py tx = true) :
    isWaitingForAction tx.session.stopReason = true := by
  unfold allPendingActionsResolved at hresolved
  cases hstopReason : tx.session.stopReason with
  | none => simp [hstopReason, pendingActionIds] at hresolved
  | some reason =>
      cases reason with
      | requiresAction eventIds => exact isWaitingForAction_requiresAction eventIds
      | _ => simp [hstopReason, pendingActionIds] at hresolved

/-- The loop reports resolved actions only for a session that waits. -/
theorem sendLoop_resolved
    {py : Python} {tx : Tx} {flags : SendFlags} {inputs : List SessionEventInput}
    (hresolved : (sendLoop py tx flags inputs).2.resolvedRequiredActions = true) :
    flags.resolvedRequiredActions = true ∨
      isWaitingForAction tx.session.stopReason = true := by
  induction inputs generalizing tx flags with
  | nil => exact Or.inl hresolved
  | cons input rest ih =>
      unfold sendLoop at hresolved
      rcases ih hresolved with hflags | hwaiting
      · split at hflags
        · exact Or.inl hflags
        · split at hflags
          · exact Or.inl hflags
          · split at hflags
            · have hwaiting := allPendingActionsResolved_waiting hflags
              exact Or.inr hwaiting
            · exact Or.inl hflags
      · exact Or.inr hwaiting

theorem validateEventBatch_ok_iff
    {py : Python} {tx : Tx} {inputs : List SessionEventInput} :
    validateEventBatch py tx inputs = .ok () ↔
      validateSystemMessageBatch (inputs.map SessionEventInput.type) = .ok () ∧
        validateDefineOutcomes py inputs = .ok () ∧
          validateBatchForState py tx inputs = .ok () := by
  unfold validateEventBatch
  cases hsystem : validateSystemMessageBatch (inputs.map SessionEventInput.type) with
  | error error => simp
  | ok _ =>
      cases houtcomes : validateDefineOutcomes py inputs with
      | error error => simp
      | ok _ => simp

/-- While the session is active, only an interrupt is accepted. -/
theorem validateEventBatch_active
    {py : Python} {tx : Tx} {inputs : List SessionEventInput}
    (hvalid : validateEventBatch py tx inputs = .ok ())
    (hactive : tx.session.status ∈ ACTIVE_STATUSES) :
    inputs.map SessionEventInput.type = ["user.interrupt"] := by
  obtain ⟨-, -, hstate⟩ := validateEventBatch_ok_iff.mp hvalid
  unfold validateBatchForState at hstate
  simp only [hactive, if_true] at hstate
  by_contra htypes
  rw [if_neg htypes] at hstate
  cases hstate

theorem validateEventBatch_inactive
    {py : Python} {tx : Tx} {inputs : List SessionEventInput}
    (hvalid : validateEventBatch py tx inputs = .ok ())
    (hinterrupt : hasInterrupt inputs = false) :
    blocksMutation tx.session.status = false := by
  have hinactive : tx.session.status ∉ ACTIVE_STATUSES := by
    intro hactive
    have htypes := validateEventBatch_active hvalid hactive
    have hmem : "user.interrupt" ∈ inputs.map SessionEventInput.type := by
      rw [htypes]
      exact List.mem_singleton.mpr rfl
    obtain ⟨input, hinput, htype⟩ := List.mem_map.mp hmem
    have hsome : hasInterrupt inputs = true :=
      List.any_eq_true.mpr ⟨input, hinput, by simp [htype]⟩
    rw [hinterrupt] at hsome
    cases hsome
  simpa [blocksMutation] using hinactive

theorem Appends.control
    {before after : Tx} {added : List SessionEvent}
    (happends : Appends before after added) :
    after.session.control = before.session.control := by
  rw [happends.session]
  rfl

theorem settleSend_effect
    {py : Python} {before : ManagedSession} {tx : Tx} {flags : SendFlags}
    {environment : Option Environment} {inputs : List SessionEventInput}
    (hcontrol : tx.session.control = before.control)
    (hdeletedAt : before.deletedAt = none) (hopen : before.status ≠ .terminated)
    (hclient : ∀ event ∈ tx.appended, isStatusEvent event = false)
    (hinterrupt : flags.shouldInterrupt = hasInterrupt inputs)
    (hresolved : flags.resolvedRequiredActions = true →
      isWaitingForAction before.stopReason = true)
    (hinactive : hasInterrupt inputs = false →
      blocksMutation before.status = false) :
    Effect py before (settleSend py tx flags).session
      (settleSend py tx flags).appended
      (.request (.sendEvents environment inputs)) := by
  have hnone : tx.session.deletedAt = none := by
    have heq : tx.session.deletedAt = before.deletedAt :=
      congrArg Control.deletedAt hcontrol
    rw [heq, hdeletedAt]
  unfold settleSend
  by_cases hflag : flags.shouldInterrupt = true
  · rw [if_pos hflag]
    apply Effect.interrupted
    · rw [← hinterrupt]
      exact hflag
    · exact hdeletedAt
    · exact hopen
    · change Control.mk _ _ tx.session.deletedAt = _
      rw [hnone]
      rfl
    · exact ⟨_, _, rfl, newEvent_names rfl (Or.inr ⟨.interrupted, rfl, rfl⟩)⟩
  · rw [if_neg hflag]
    have hno : hasInterrupt inputs = false := by
      rw [← hinterrupt]
      simpa using hflag
    by_cases hrun : flags.shouldRun = true
    · rw [if_pos hrun]
      by_cases hactions : flags.resolvedRequiredActions = true
      · simp only [hactions, if_true]
        have hidle : before.status = .idle := by
          have hblocks := hinactive hno
          cases hstatus : before.status with
          | idle => rfl
          | running => simp [hstatus, blocksMutation, ACTIVE_STATUSES] at hblocks
          | rescheduling =>
              simp [hstatus, blocksMutation, ACTIVE_STATUSES] at hblocks
          | terminated => exact absurd hstatus hopen
        apply Effect.actionSubmitted hno hdeletedAt hidle (hresolved hactions)
        · change Control.mk _ _ tx.session.deletedAt = _
          rw [hnone]
          rfl
        · exact hclient
      · simp only [hactions]
        exact Effect.kept hno hcontrol hclient
    · rw [if_neg hrun]
      exact Effect.kept hno hcontrol hclient

theorem settleSend_disciplined
    {py : Python} {snapshot : Db} {tx : Tx} {flags : SendFlags}
    (hsequenced : Sequenced tx) (hsnapshot : tx.snapshot = snapshot)
    (hquiet : tx.appended = [] →
      tx.session.fenced = snapshot.session.fenced ∧
        flags.resolvedRequiredActions = false) :
    Disciplined snapshot (settleSend py tx flags) := by
  unfold settleSend
  split
  · constructor
    · exact hsnapshot
    · exact (hsequenced.updateSession _).appendEvent _ _ _ _
    · intro happended
      simp [appendEvent] at happended
  · split
    · constructor
      · split <;> exact hsnapshot
      · split
        · exact hsequenced.of_eq rfl rfl rfl
        · exact hsequenced.of_eq rfl rfl rfl
      · intro happended
        have hnil : tx.appended = [] := by
          split at happended <;> exact happended
        obtain ⟨hfenced, hresolved⟩ := hquiet hnil
        rw [hresolved]
        exact hfenced
    · exact ⟨hsnapshot, hsequenced, fun happended => (hquiet happended).1⟩

theorem sendEvents_effect
    {py : Python} {snapshot : Db} {context : Context} {tx : Tx}
    {environment : Option Environment} {inputs : List SessionEventInput}
    (htx : sendEvents py environment inputs (Tx.begin snapshot context) = .ok tx) :
    Effect py snapshot.session tx.session tx.appended
        (.request (.sendEvents environment inputs)) ∧
      Disciplined snapshot tx := by
  obtain ⟨⟨hdeletedAt, -, hopen, -⟩, hvalid, rfl⟩ := sendEvents_ok_iff.mp htx
  obtain ⟨added, happends, htypes, horigin⟩ :=
    sendLoop_appends py (Tx.begin snapshot context) {} inputs
  have happended :
      (sendLoop py (Tx.begin snapshot context) {} inputs).1.appended = added :=
    happends.appended
  constructor
  · apply settleSend_effect
    · exact happends.control
    · exact hdeletedAt
    · exact hopen
    · intro event hevent
      rw [happended] at hevent
      exact isStatusEvent_eq_false_of_client (horigin event hevent)
    · simp [sendLoop_shouldInterrupt]
    · intro hresolved
      rcases sendLoop_resolved hresolved with hflags | hwaiting
      · cases hflags
      · exact hwaiting
    · exact validateEventBatch_inactive hvalid
  · apply settleSend_disciplined
    · exact (Sequenced.begin snapshot context).appends happends
    · exact happends.snapshot
    · intro hnil
      rw [happended] at hnil
      have hinputs : inputs = [] := by
        have hlength := congrArg List.length htypes
        simpa [hnil] using hlength.symm
      constructor
      · rw [happends.session, hnil]
        rfl
      · rw [hinputs]
        rfl

end ManagedAgents
