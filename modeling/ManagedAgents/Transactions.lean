import ManagedAgents.Runtime.Turn

/-!
# Session transactions

All transactions that write a session row, as one family.  The file states
what a body may do to the transaction it runs in: how its new events are
numbered, and which columns a body without events leaves alone.
-/

namespace ManagedAgents

open SequencedLog

/-- The requests of the API that write a session. -/
inductive Request
  | updateSession (response : ResponseContext) (body : SessionUpdateRequest)
  | archiveSession
  | deleteSession
  | cancelSession
  | resumeSession (environment : Option Environment)
  | sendEvents (environment : Option Environment) (inputs : List SessionEventInput)
  | archiveSessionThread (threadId : String) (threadExists : Bool)

def Request.handle (py : Python) : Request → Tx → Except HTTPException Tx
  | .updateSession response body, tx => updateSessionRequest py response body tx
  | .archiveSession, tx => ManagedAgents.archiveSession tx
  | .deleteSession, tx => ManagedAgents.deleteSession py tx
  | .cancelSession, tx => ManagedAgents.cancelSession py tx
  | .resumeSession environment, tx => ManagedAgents.resumeSession environment tx
  | .sendEvents environment inputs, tx =>
      ManagedAgents.sendEvents py environment inputs tx
  | .archiveSessionThread threadId threadExists, tx =>
      ManagedAgents.archiveSessionThread threadId threadExists tx

inductive Transaction
  | request (call : Request)
  | start
  | load (rows : TurnRows)
  | outcome (history : List SessionEvent) (result : RuntimeResult)
  | failure (exc : PyException)

def TurnReply.commit? : TurnReply → Option Tx
  | .commit tx => some tx
  | _ => none

/-- The transaction to commit, when the body gets that far. -/
def Transaction.body (py : Python) : Transaction → Tx → Option Tx
  | .request call, tx => (call.handle py tx).toOption
  | .start, tx => startTurn py tx
  | .load rows, tx => ((loadTurn py rows tx).toOption).map Prod.snd
  | .outcome history result, tx => (commitOutcome py history result tx).commit?
  | .failure exc, tx => (failTurn py exc tx).toOption

theorem Except.toOption_eq_some
    {ε α : Type*} {value : Except ε α} {result : α} :
    value.toOption = some result ↔ value = .ok result := by
  cases value <;> simp [Except.toOption]

theorem TurnReply.commit?_eq_some {reply : TurnReply} {tx : Tx} :
    reply.commit? = some tx ↔ reply = .commit tx := by
  cases reply <;> simp [TurnReply.commit?]

/-! ## Appending events -/

/-- `after` is `before` with the events `added` appended, and nothing else
changed but the counter. -/
structure Appends (before after : Tx) (added : List SessionEvent) : Prop where
  eq : after =
    { before with
      session :=
        { before.session with
          lastEventSeq := before.session.lastEventSeq + added.length }
      appended := before.appended ++ added }
  numbered : NumberedFrom SessionEvent.seq before.session.lastEventSeq added
  ids : ∀ event ∈ added, event.id ≠ ""

theorem Appends.refl (tx : Tx) : Appends tx tx [] where
  eq := by simp
  numbered := numberedFrom_nil _
  ids := by simp

theorem Appends.trans
    {first second third : Tx} {front back : List SessionEvent}
    (hfront : Appends first second front) (hback : Appends second third back) :
    Appends first third (front ++ back) := by
  obtain ⟨rfl, hfirst, hfrontIds⟩ := hfront
  obtain ⟨rfl, hsecond, hbackIds⟩ := hback
  constructor
  · simp [Nat.add_assoc]
  · exact hfirst.append hsecond
  · intro event hevent
    rcases List.mem_append.mp hevent with hevent | hevent
    · exact hfrontIds event hevent
    · exact hbackIds event hevent

theorem newEvent_id_ne
    (py : Python) (tx : Tx) (origin : EventOrigin) (eventType : String)
    (payload : Dict) : (tx.newEvent py origin eventType payload).id ≠ "" := by
  intro hid
  have hlength := congrArg String.length hid
  simp [Tx.newEvent, Tx.newId] at hlength

theorem appendEvent_appends
    (py : Python) (tx : Tx) (origin : EventOrigin) (eventType : String)
    (payload : Dict) :
    Appends tx (appendEvent py tx origin eventType payload)
      [tx.newEvent py origin eventType payload] where
  eq := rfl
  numbered := NumberedFrom.singleton rfl
  ids := by
    intro event hevent
    rw [List.mem_singleton.mp hevent]
    exact newEvent_id_ne py tx origin eventType payload

section

variable {before after : Tx} {added : List SessionEvent}

theorem Appends.session (happends : Appends before after added) :
    after.session =
      { before.session with
        lastEventSeq := before.session.lastEventSeq + added.length } := by
  rw [happends.eq]

theorem Appends.appended (happends : Appends before after added) :
    after.appended = before.appended ++ added := by
  rw [happends.eq]

theorem Appends.snapshot (happends : Appends before after added) :
    after.snapshot = before.snapshot := by
  rw [happends.eq]

theorem Appends.context (happends : Appends before after added) :
    after.context = before.context := by
  rw [happends.eq]

theorem Appends.enqueued (happends : Appends before after added) :
    after.enqueued = before.enqueued := by
  rw [happends.eq]

end

/-- The events which the append loop of `send_events` adds. -/
theorem sendLoop_appends
    (py : Python) (tx : Tx) (flags : SendFlags) (inputs : List SessionEventInput) :
    ∃ added, Appends tx (sendLoop py tx flags inputs).1 added ∧
      added.map SessionEvent.type = inputs.map SessionEventInput.type ∧
      ∀ event ∈ added, event.origin = .client := by
  induction inputs generalizing tx flags with
  | nil => exact ⟨[], Appends.refl tx, rfl, by simp⟩
  | cons input rest ih =>
      unfold sendLoop
      have hfirst := appendEvent_appends py tx .client input.type input.payload
      obtain ⟨added, happends, htypes, horigin⟩ := ih _ _
      refine ⟨_, hfirst.trans happends, ?_, ?_⟩
      · simpa [Tx.newEvent] using htypes
      · intro event hevent
        rcases List.mem_cons.mp hevent with rfl | hevent
        · rfl
        · exact horigin event hevent

/-- The conditions under which `send_events` commits, and what it commits. -/
theorem sendEvents_ok_iff
    {py : Python} {environment : Option Environment}
    {inputs : List SessionEventInput} {tx after : Tx} :
    sendEvents py environment inputs tx = .ok after ↔
      (tx.session.deletedAt = none ∧ tx.session.archivedAt = none ∧
        tx.session.status ≠ .terminated ∧ Environment.live environment = true) ∧
      validateEventBatch py tx inputs = .ok () ∧
      settleSend py (sendLoop py tx {} inputs).1 (sendLoop py tx {} inputs).2 =
        after := by
  unfold sendEvents
  cases hdeleted : tx.session.deletedAt with
  | some deletedAt => simp
  | none =>
      cases harchived : tx.session.archivedAt with
      | some archivedAt => simp
      | none =>
          by_cases hterminated : tx.session.status = .terminated
          · simp [hterminated]
          by_cases hlive : Environment.live environment = true
          swap
          · simp [hterminated, hlive]
          cases hvalid : validateEventBatch py tx inputs with
          | error error => simp [hterminated, hlive]
          | ok _ => simp [hterminated, hlive]

theorem resumeSession_ok_iff
    {environment : Option Environment} {tx after : Tx} :
    resumeSession environment tx = .ok after ↔
      (tx.session.deletedAt = none ∧
        canStartWork tx.session.status tx.session.stopReason = true ∧
          Environment.live environment = true) ∧
        enqueueSessionRun tx "session.resume" [] = after := by
  unfold resumeSession
  cases hdeleted : tx.session.deletedAt with
  | some deletedAt => simp
  | none =>
      cases hstart : canStartWork tx.session.status tx.session.stopReason with
      | false =>
          simp only [Option.isSome_none, Bool.false_eq_true, if_false, Bool.not_false,
            if_true, false_and, and_false, iff_false]
          split
          · simp
          · split <;> simp
      | true =>
          obtain ⟨hstatus, hfree⟩ := (canStartWork_iff _ _).mp hstart
          have hopen : tx.session.status ≠ .terminated := by
            rcases hstatus with hstatus | hstatus
            · simp [hstatus]
            · simp [hstatus]
          cases hlive : Environment.live environment with
          | false => simp [hopen, hfree]
          | true => simp [hopen, hfree]

theorem startTurn_eq_some_iff
    {py : Python} {tx after : Tx} :
    startTurn py tx = some after ↔
      (tx.session.deletedAt = none ∧
        canStartWork tx.session.status tx.session.stopReason = true) ∧
        appendEvent py
          (updateSession tx { status := some .running, stopReason := some .inProgress })
          .server "session.status_running"
          [("type", .str "session.status_running"),
           ("status", .str SessionStatus.running.name)] = after := by
  unfold startTurn
  cases hdeleted : tx.session.deletedAt with
  | some deletedAt => simp
  | none =>
      cases hstart : canStartWork tx.session.status tx.session.stopReason with
      | false => simp
      | true => simp

theorem appendRuntimeContextEvents_appends
    (py : Python) (tx : Tx) (context : RuntimeContext) :
    ∃ added, Appends tx (appendRuntimeContextEvents py tx context) added ∧
      ∀ event ∈ added, event.type = "session.error" := by
  unfold appendRuntimeContextEvents
  induction context.mcpErrors generalizing tx with
  | nil => exact ⟨[], Appends.refl tx, by simp⟩
  | cons error rest ih =>
      have hfirst := appendEvent_appends py tx .server "session.error"
        (mcpErrorPayload error)
      obtain ⟨added, happends, htypes⟩ := ih _
      refine ⟨_, hfirst.trans happends, ?_⟩
      intro event hevent
      rcases List.mem_cons.mp hevent with rfl | hevent
      · rfl
      · exact htypes event hevent

theorem isRequiredActionEvent_type
    {result : RuntimeResult} {toolEvent : Dict} {explicit : Bool}
    (hrequired : isRequiredActionEvent result toolEvent explicit = true) :
    ∃ eventType ∈ TOOL_USE_EVENTS, Dict.get toolEvent "type" = .str eventType := by
  unfold isRequiredActionEvent at hrequired
  split at hrequired
  · cases hrequired
  · split at hrequired
    · cases hrequired
    · next htype => exact not_not.mp htype

/-- The loop over the tool events appends one event for each and collects the
ids of those the session has to wait for. -/
theorem appendToolEvents_appends
    {py : Python} {result : RuntimeResult} {explicit : Bool} {tx after : Tx}
    {blockingIds ids : List String} {toolEvents : List Dict}
    (hloop : appendToolEvents py result explicit tx blockingIds toolEvents =
      .ok (after, ids)) :
    ∃ added blocked, Appends tx after added ∧
      ids = blockingIds ++ blocked.map SessionEvent.id ∧
      blocked.Sublist added ∧
      (∀ event ∈ blocked, event.type ∈ TOOL_USE_EVENTS) ∧
      ((∃ toolEvent ∈ toolEvents,
        isRequiredActionEvent result toolEvent explicit = true) → blocked ≠ []) := by
  induction toolEvents generalizing tx blockingIds with
  | nil =>
      simp only [appendToolEvents, Except.ok.injEq, Prod.mk.injEq] at hloop
      obtain ⟨rfl, rfl⟩ := hloop
      exact ⟨[], [], Appends.refl tx, by simp, List.Sublist.refl _, by simp, by simp⟩
  | cons toolEvent rest ih =>
      unfold appendToolEvents at hloop
      split at hloop
      · cases hloop
      split at hloop
      next eventType htype =>
        have hfirst := appendEvent_appends py tx .server eventType toolEvent
        obtain ⟨added, blocked, happends, hids, hsublist, htoolUse, hnonempty⟩ :=
          ih hloop
        by_cases hrequired : isRequiredActionEvent result toolEvent explicit = true
        · refine ⟨_, tx.newEvent py .server eventType toolEvent :: blocked,
            hfirst.trans happends, ?_, ?_, ?_, ?_⟩
          · rw [hids]
            simp [hrequired]
          · exact hsublist.cons_cons _
          · intro event hevent
            rcases List.mem_cons.mp hevent with rfl | hevent
            · obtain ⟨toolType, hmem, hget⟩ := isRequiredActionEvent_type hrequired
              rw [htype] at hget
              cases hget
              exact hmem
            · exact htoolUse event hevent
          · intro _
            exact List.cons_ne_nil _ _
        · refine ⟨_, blocked, hfirst.trans happends, ?_, ?_, htoolUse, ?_⟩
          · rw [hids]
            simp [hrequired]
          · exact hsublist.cons _
          · rintro ⟨other, hother, hrequiredOther⟩
            rcases List.mem_cons.mp hother with rfl | hother
            · exact absurd hrequiredOther hrequired
            · exact hnonempty ⟨other, hother, hrequiredOther⟩
      next => cases hloop

theorem appendFinalText_appends
    (py : Python) (result : RuntimeResult) (tx : Tx) :
    ∃ added, Appends tx (appendFinalText py result tx) added := by
  unfold appendFinalText
  split
  · exact ⟨_, appendEvent_appends _ _ _ _ _⟩
  · exact ⟨[], Appends.refl tx⟩

theorem appendEvaluation_appends
    (py : Python) (evaluation : Option Dict) (tx : Tx) :
    ∃ added, Appends tx (appendEvaluation py evaluation tx).2 added := by
  unfold appendEvaluation
  cases evaluation with
  | none => exact ⟨[], Appends.refl tx⟩
  | some evaluation => exact ⟨_, appendEvent_appends _ _ _ _ _⟩

/-! ## Sequenced transactions -/

/-- The new events are numbered from the counter that was read, and the
counter has advanced by their number. -/
structure Sequenced (tx : Tx) : Prop where
  numbered :
    NumberedFrom SessionEvent.seq tx.snapshot.session.lastEventSeq tx.appended
  counter :
    tx.session.lastEventSeq =
      tx.snapshot.session.lastEventSeq + tx.appended.length

theorem Sequenced.begin (snapshot : Db) (context : Context) :
    Sequenced (Tx.begin snapshot context) where
  numbered := numberedFrom_nil _
  counter := rfl

theorem Sequenced.appends
    {before after : Tx} {added : List SessionEvent}
    (hbefore : Sequenced before) (happends : Appends before after added) :
    Sequenced after := by
  obtain ⟨rfl, hadded, -⟩ := happends
  constructor
  · apply hbefore.numbered.append
    rw [← hbefore.counter]
    exact hadded
  · simp [hbefore.counter, Nat.add_assoc]

/-- A change to other columns or to the queue keeps a transaction sequenced. -/
theorem Sequenced.of_eq
    {before after : Tx} (hbefore : Sequenced before)
    (hsnapshot : after.snapshot = before.snapshot)
    (happended : after.appended = before.appended)
    (hcounter : after.session.lastEventSeq = before.session.lastEventSeq) :
    Sequenced after where
  numbered := by
    rw [hsnapshot, happended]
    exact hbefore.numbered
  counter := by
    rw [hsnapshot, happended, hcounter]
    exact hbefore.counter

theorem Sequenced.updateSession
    {tx : Tx} (hbefore : Sequenced tx) (update : SessionUpdate) :
    Sequenced (updateSession tx update) :=
  hbefore.of_eq rfl rfl rfl

theorem Sequenced.appendEvent
    {tx : Tx} (hbefore : Sequenced tx) (py : Python) (origin : EventOrigin)
    (eventType : String) (payload : Dict) :
    Sequenced (appendEvent py tx origin eventType payload) :=
  hbefore.appends (appendEvent_appends py tx origin eventType payload)

end ManagedAgents
