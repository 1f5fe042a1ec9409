import ManagedAgents.Effects

/-!
# The effect of the transactions of a turn

The statements of the previous file for starting, loading, concluding and
failing a turn, and the summary over all transactions.
-/

namespace ManagedAgents

open SequencedLog

variable {py : Python} {snapshot : Db} {context : Context} {tx : Tx}

theorem startTurn_effect
    (htx : startTurn py (Tx.begin snapshot context) = some tx) :
    Effect py snapshot.session tx.session tx.appended .start ∧
      Disciplined snapshot tx := by
  unfold startTurn at htx
  split at htx
  · cases htx
  next hdeletedAt =>
  split at htx
  · cases htx
  next hcanStart =>
  have hnone : snapshot.session.deletedAt = none := by simpa using hdeletedAt
  cases htx
  constructor
  · apply Effect.started hnone
    · simpa using hcanStart
    · change Control.mk _ _ snapshot.session.deletedAt = _
      rw [hnone]
      rfl
    · exact ⟨[], _, rfl, newEvent_names rfl (Or.inl rfl)⟩
  · constructor
    · rfl
    · exact ((Sequenced.begin snapshot context).updateSession _).appendEvent
        _ _ _ _
    · intro happended
      simp [appendEvent] at happended

theorem loadTurn_effect
    {rows : TurnRows} {loaded : LoadedTurn}
    (htx : loadTurn py rows (Tx.begin snapshot context) = .ok (loaded, tx)) :
    Effect py snapshot.session tx.session tx.appended (.load rows) ∧
      Disciplined snapshot tx := by
  unfold loadTurn at htx
  split at htx
  · cases htx
  split at htx
  · cases htx
  split at htx
  · cases htx
  cases htx
  obtain ⟨added, happends, htypes⟩ :=
    appendRuntimeContextEvents_appends py (Tx.begin snapshot context) rows.context
  have happended :
      (appendRuntimeContextEvents py (Tx.begin snapshot context)
        rows.context).appended = added :=
    happends.appended
  constructor
  · apply Effect.kept
    · trivial
    · exact happends.control
    · intro event hevent
      rw [happended] at hevent
      apply isStatusEvent_eq_false_of_type
      rw [htypes event hevent]
      rfl
  · constructor
    · exact happends.snapshot
    · exact (Sequenced.begin snapshot context).appends happends
    · intro hnil
      rw [happended] at hnil
      rw [happends.session, hnil]
      rfl

/-! ## Outcome -/

theorem closeTurn_announces
    (py : Python) (result : RuntimeResult) (details : StatusDetails)
    (reason : StopReason) (tx : Tx) :
    Announces py (closeTurn py result details reason tx).session
      (closeTurn py result details reason tx).appended :=
  ⟨_, _, rfl, newEvent_names rfl (Or.inr ⟨reason, rfl, rfl⟩)⟩

theorem closeTurn_disciplined
    (py : Python) (result : RuntimeResult) (details : StatusDetails)
    (reason : StopReason) {tx : Tx}
    (hsnapshot : tx.snapshot = snapshot) (hsequenced : Sequenced tx) :
    Disciplined snapshot (closeTurn py result details reason tx) where
  snapshot_eq := hsnapshot
  sequenced := (hsequenced.updateSession _).appendEvent _ _ _ _
  quiet := by
    intro happended
    simp [closeTurn, appendEvent] at happended

/-- Both ways to conclude a turn close a transaction which appended events to
the one that was read. -/
theorem commitOutcome_closes
    {history : List SessionEvent} {result : RuntimeResult} {start : Tx}
    (htx : commitOutcome py history result start = .commit tx) :
    start.session.status = .running ∧
      isWaitingForAction start.session.stopReason = false ∧
      ∃ middle added details reason,
        Appends start middle added ∧
        tx = closeTurn py result details reason middle ∧
        (reason = .endTurn ∨
          result.requiresAction = true ∧
            ∃ blocked, reason = .requiresAction (blocked.map SessionEvent.id) ∧
              Blocks result added blocked) := by
  unfold commitOutcome at htx
  split at htx
  · cases htx
  next hfence =>
  rw [not_or, not_not, Bool.not_eq_true] at hfence
  refine ⟨hfence.1, hfence.2, ?_⟩
  simp only at htx
  split at htx
  · cases htx
  next middle blockingIds hloop =>
  obtain ⟨added, blocked, happends, hids, hsublist, htoolUse, hnonempty⟩ :=
    appendToolEvents_appends hloop
  split at htx
  · next hrequires =>
      cases htx
      refine ⟨middle, added, _, _, happends, rfl,
        Or.inr ⟨hrequires, blocked, ?_, ⟨hsublist, htoolUse, ?_, hnonempty⟩⟩⟩
      · rw [hids, List.nil_append]
      · intro event hevent
        exact happends.ids event (hsublist.subset hevent)
  · split at htx
    · cases htx
    next evaluation hevaluation =>
    cases htx
    obtain ⟨texts, htexts⟩ := appendFinalText_appends py result middle
    obtain ⟨marks, hmarks⟩ :=
      appendEvaluation_appends py evaluation (appendFinalText py result middle)
    exact ⟨_, _, _, _, (happends.trans htexts).trans hmarks, rfl, Or.inl rfl⟩

theorem commitOutcome_effect
    {history : List SessionEvent} {result : RuntimeResult}
    (htx : commitOutcome py history result (Tx.begin snapshot context) =
      .commit tx) :
    Effect py snapshot.session tx.session tx.appended (.outcome history result) ∧
      Disciplined snapshot tx := by
  obtain ⟨hrunning, hwaiting, middle, added, details, reason, happends, rfl,
    hreason⟩ := commitOutcome_closes htx
  have hdeletedAt : middle.session.deletedAt = snapshot.session.deletedAt :=
    congrArg Control.deletedAt happends.control
  have happended :
      (closeTurn py result details reason middle).appended =
        added ++ [middle.newEvent py .server "session.status_idle"
          [("type", .str "session.status_idle"),
           ("status", .str SessionStatus.idle.name),
           ("stop_reason", reason.toJson py),
           ("usage", .dict (result.usage.getD []))]] := by
    change middle.appended ++ _ = _
    rw [happends.appended]
    rfl
  constructor
  · apply Effect.concluded hrunning hwaiting
    · rcases hreason with hend | ⟨hrequires, blocked, hids, hblocks⟩
      · exact Or.inl hend
      · refine Or.inr ⟨hrequires, blocked, hids, ?_, hblocks.toolUse,
          hblocks.ids, hblocks.nonempty⟩
        rw [happended]
        exact hblocks.sublist.trans (List.sublist_append_left _ _)
    · change Control.mk _ _ middle.session.deletedAt = _
      rw [hdeletedAt]
      rfl
    · exact closeTurn_announces py result details reason middle
  · apply closeTurn_disciplined
    · exact happends.snapshot
    · exact (Sequenced.begin snapshot context).appends happends

/-! ## Results that can be recorded -/

def namesType (toolEvent : Dict) : Bool :=
  Dict.contains toolEvent "type" &&
    match Dict.get toolEvent "type" with
    | .str _ => true
    | _ => false

/-- Recording the result raises nothing. -/
def recordsResult (py : Python) (history : List SessionEvent)
    (result : RuntimeResult) : Bool :=
  result.toolEvents.all namesType &&
    (result.requiresAction ||
      (outcomeEvaluationFromHistory py history result).toOption.isSome)

theorem appendToolEvents_namesType
    {py : Python} {result : RuntimeResult} {explicit : Bool} {tx after : Tx}
    {blockingIds ids : List String} {toolEvents : List Dict}
    (hloop : appendToolEvents py result explicit tx blockingIds toolEvents =
      .ok (after, ids)) :
    toolEvents.all namesType = true := by
  induction toolEvents generalizing tx blockingIds with
  | nil => rfl
  | cons toolEvent rest ih =>
      unfold appendToolEvents at hloop
      split at hloop
      · cases hloop
      next hcontains =>
      split at hloop
      next eventType htype =>
        have hnames : namesType toolEvent = true := by
          unfold namesType
          rw [htype]
          simpa using hcontains
        rw [List.all_cons, hnames, ih hloop]
        rfl
      next => cases hloop

theorem commitOutcome_recordsResult
    {py : Python} {history : List SessionEvent} {result : RuntimeResult}
    {start tx : Tx} (htx : commitOutcome py history result start = .commit tx) :
    recordsResult py history result = true := by
  unfold commitOutcome at htx
  split at htx
  · cases htx
  simp only at htx
  split at htx
  · cases htx
  next middle blockingIds hloop =>
  have hnames := appendToolEvents_namesType hloop
  unfold recordsResult
  rw [hnames, Bool.true_and]
  split at htx
  · next hrequires => rw [hrequires, Bool.true_or]
  · split at htx
    · cases htx
    next evaluation hevaluation =>
      rw [hevaluation]
      simp [Except.toOption]

/-! ## Failure -/

theorem markTransientRuntimeFailure_effect
    {exc : PyException}
    (htransient : isTransientRuntimeError py exc = .ok true)
    (htx : markTransientRuntimeFailure py exc (Tx.begin snapshot context) =
      .ok tx) :
    Effect py snapshot.session tx.session tx.appended (.failure exc) ∧
      Disciplined snapshot tx := by
  unfold markTransientRuntimeFailure at htx
  simp only at htx
  split at htx
  · cases htx
  next retryAfter hretryAfter =>
  split at htx
  · cases htx
  next code hcode =>
  split at htx
  · cases htx
    constructor
    · refine Effect.failed ?hreason (Eq.refl _) ?hannounces
      case hannounces =>
        exact ⟨_, _, rfl, newEvent_names rfl (Or.inr ⟨_, rfl, rfl⟩)⟩
      case hreason => rfl
    · constructor
      · rfl
      · exact (((Sequenced.begin snapshot context).updateSession _).appendEvent
          _ _ _ _).appendEvent _ _ _ _
      · intro happended
        simp [appendEvent] at happended
  · next hattempt =>
      cases htx
      constructor
      · refine Effect.rescheduled htransient ?hattempt ?hreason (Eq.refl _)
          ?hannounces
        case hannounces =>
          exact ⟨_, _, rfl, newEvent_names rfl (Or.inr ⟨_, rfl, rfl⟩)⟩
        case hattempt => simpa using hattempt
        case hreason => rfl
      · constructor
        · rfl
        · exact (((Sequenced.begin snapshot context).updateSession _).appendEvent
            _ _ _ _).appendEvent _ _ _ _
        · intro happended
          simp [appendEvent] at happended

theorem failTurn_effect
    {exc : PyException}
    (htx : failTurn py exc (Tx.begin snapshot context) = .ok tx) :
    Effect py snapshot.session tx.session tx.appended (.failure exc) ∧
      Disciplined snapshot tx := by
  unfold failTurn at htx
  split at htx
  · cases htx
  · next htransient => exact markTransientRuntimeFailure_effect htransient htx
  · cases htx
    constructor
    · refine Effect.failed ?hreason (Eq.refl _) ?hannounces
      case hannounces =>
        exact ⟨_, _, rfl, newEvent_names rfl (Or.inr ⟨_, rfl, rfl⟩)⟩
      case hreason => rfl
    · constructor
      · rfl
      · exact (((Sequenced.begin snapshot context).updateSession _).appendEvent
          _ _ _ _).appendEvent _ _ _ _
      · intro happended
        simp [failPermanently, appendEvent] at happended

/-- A handler that commits did not overflow on the exception's attributes. -/
theorem failTurn_handlesFailure
    {exc : PyException} {start : Tx}
    (htx : failTurn py exc start = .ok tx) :
    handlesFailure py exc start.session.statusDetails = true := by
  unfold failTurn at htx
  unfold handlesFailure
  split at htx
  · cases htx
  · unfold markTransientRuntimeFailure at htx
    simp only at htx
    split at htx
    · cases htx
    · next retryAfter hretryAfter =>
        simp only [hretryAfter]
        rfl
  · rfl

/-! ## Every transaction -/

theorem Transaction.body_effect
    {transaction : Transaction}
    (htx : transaction.body py (Tx.begin snapshot context) = some tx) :
    Effect py snapshot.session tx.session tx.appended transaction ∧
      Disciplined snapshot tx := by
  cases transaction with
  | request call =>
      have hhandle := Except.toOption_eq_some.mp htx
      cases call with
      | updateSession response body => exact updateSessionRequest_effect hhandle
      | archiveSession => exact archiveSession_effect hhandle
      | deleteSession => exact deleteSession_effect hhandle
      | cancelSession => exact cancelSession_effect hhandle
      | resumeSession environment => exact resumeSession_effect hhandle
      | sendEvents environment inputs => exact sendEvents_effect hhandle
      | archiveSessionThread threadId threadExists =>
          exact archiveSessionThread_effect hhandle
  | start => exact startTurn_effect htx
  | load rows =>
      obtain ⟨⟨loaded, after⟩, hloaded, rfl⟩ := Option.map_eq_some_iff.mp htx
      exact loadTurn_effect (Except.toOption_eq_some.mp hloaded)
  | outcome history result =>
      exact commitOutcome_effect (TurnReply.commit?_eq_some.mp htx)
  | failure exc => exact failTurn_effect (Except.toOption_eq_some.mp htx)

end ManagedAgents
