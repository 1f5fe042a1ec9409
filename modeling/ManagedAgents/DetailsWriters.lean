import ManagedAgents.TurnEffects

/-!
# Writers of the status details

Four transactions rewrite `status_details` as a whole: the archive of the
primary thread sets one key, and the update of a session, the outcome of a
turn and its failure set others.  The last three carry the key of the archive
along unread, so they commute with every change of it.
-/

namespace ManagedAgents

def StatusDetails.withArchive (details : StatusDetails)
    (archivedAt : Option Time) : StatusDetails :=
  { details with primaryThreadArchivedAt := archivedAt }

@[simp] theorem StatusDetails.withArchive_self (details : StatusDetails) :
    details.withArchive details.primaryThreadArchivedAt = details := rfl

@[simp] theorem StatusDetails.withArchive_withArchive
    (details : StatusDetails) (first second : Option Time) :
    (details.withArchive first).withArchive second = details.withArchive second :=
  rfl

@[simp] theorem StatusDetails.primaryThreadArchivedAt_withArchive
    (details : StatusDetails) (archivedAt : Option Time) :
    (details.withArchive archivedAt).primaryThreadArchivedAt = archivedAt := rfl

def ManagedSession.withDetails (session : ManagedSession)
    (details : StatusDetails) : ManagedSession :=
  { session with statusDetails := details }

def Db.withDetails (db : Db) (details : StatusDetails) : Db :=
  { db with session := db.session.withDetails details }

/-- The transaction, had it read another value of the archive's key. -/
def Tx.withArchive (tx : Tx) (archivedAt : Option Time) : Tx :=
  { tx with
    snapshot := tx.snapshot.withDetails
      (tx.snapshot.session.statusDetails.withArchive archivedAt)
    session := tx.session.withDetails
      (tx.session.statusDetails.withArchive archivedAt) }

/-! ## The archive's key is carried along -/

section

variable (py : Python) (tx : Tx) (archivedAt : Option Time)

theorem appendToolEvents_withArchive
    (result : RuntimeResult) (explicit : Bool) (blockingIds : List String)
    (toolEvents : List Dict) :
    appendToolEvents py result explicit (tx.withArchive archivedAt) blockingIds
        toolEvents =
      (appendToolEvents py result explicit tx blockingIds toolEvents).map
        fun appended => (appended.1.withArchive archivedAt, appended.2) := by
  induction toolEvents generalizing tx blockingIds with
  | nil => rfl
  | cons toolEvent rest ih =>
      unfold appendToolEvents
      split
      · rfl
      · split
        next eventType _ =>
          exact ih (appendEvent py tx .server eventType toolEvent) _
        next => rfl

theorem appendFinalText_withArchive (result : RuntimeResult) :
    appendFinalText py result (tx.withArchive archivedAt) =
      (appendFinalText py result tx).withArchive archivedAt := by
  unfold appendFinalText
  split <;> rfl

theorem appendEvaluation_withArchive (evaluation : Option Dict) :
    appendEvaluation py evaluation (tx.withArchive archivedAt) =
      ((appendEvaluation py evaluation tx).1.withArchive archivedAt,
        (appendEvaluation py evaluation tx).2.withArchive archivedAt) := by
  cases evaluation <;> rfl

def TurnReply.map (f : Tx → Tx) : TurnReply → TurnReply
  | .commit tx => .commit (f tx)
  | reply => reply

theorem commitOutcome_withArchive
    (history : List SessionEvent) (result : RuntimeResult) :
    commitOutcome py history result (tx.withArchive archivedAt) =
      (commitOutcome py history result tx).map
        fun written => written.withArchive archivedAt := by
  unfold commitOutcome
  change (if tx.session.status ≠ .running ∨
      isWaitingForAction tx.session.stopReason then _ else _) = _
  split
  · rfl
  · simp only [appendToolEvents_withArchive]
    cases appendToolEvents py result (result.toolEvents.any requiresConfirmation)
        tx [] result.toolEvents with
    | error exc => rfl
    | ok appended =>
        simp only [Except.map, appendFinalText_withArchive,
          appendEvaluation_withArchive]
        split
        · rfl
        · cases outcomeEvaluationFromHistory py history result <;> rfl

theorem markTransientRuntimeFailure_withArchive (exc : PyException) :
    markTransientRuntimeFailure py exc (tx.withArchive archivedAt) =
      (markTransientRuntimeFailure py exc tx).map
        fun written => written.withArchive archivedAt := by
  have hattempt :
      nextAttempt (tx.withArchive archivedAt).session.statusDetails =
        nextAttempt tx.session.statusDetails := rfl
  unfold markTransientRuntimeFailure
  simp only [hattempt]
  cases retryAfterSeconds py exc (nextAttempt tx.session.statusDetails) with
  | error error => rfl
  | ok retryAfter =>
      cases statusCode py exc with
      | error error => rfl
      | ok code =>
          simp only
          split <;> rfl

theorem failTurn_withArchive (exc : PyException) :
    failTurn py exc (tx.withArchive archivedAt) =
      (failTurn py exc tx).map fun written => written.withArchive archivedAt := by
  unfold failTurn
  cases isTransientRuntimeError py exc with
  | error error => rfl
  | ok transient =>
      cases transient with
      | false => rfl
      | true => exact markTransientRuntimeFailure_withArchive py tx archivedAt exc

end

/-! ## Updates of a session -/

theorem mergeSessionAgentOverlay_withArchive
    (py : Python) (details : StatusDetails) (archivedAt : Option Time)
    (version : Option AgentVersion) (update : Dict) :
    mergeSessionAgentOverlay py (details.withArchive archivedAt) version update =
      (mergeSessionAgentOverlay py details version update).map
        fun merged => merged.withArchive archivedAt := by
  unfold mergeSessionAgentOverlay
  simp only [bind, Except.bind, pure, Except.pure, throw, throwThe,
    MonadExceptOf.throw]
  repeat' split
  all_goals first
    | rfl
    | simp_all [Except.map, StatusDetails.withArchive]

def SessionUpdate.withArchive (update : SessionUpdate)
    (archivedAt : Option Time) : SessionUpdate :=
  { update with
    statusDetails := update.statusDetails.map fun details =>
      details.withArchive archivedAt }

theorem sessionUpdateOf_withArchive
    (py : Python) (session : ManagedSession) (archivedAt : Option Time)
    (version : Option AgentVersion) (body : SessionUpdateRequest) :
    sessionUpdateOf py
        (session.withDetails (session.statusDetails.withArchive archivedAt))
        version body =
      (sessionUpdateOf py session version body).map
        fun update => update.withArchive archivedAt := by
  have herror : ∀ error : HTTPException,
      some <$> (Except.error error : Except HTTPException StatusDetails).map
          (fun merged => merged.withArchive archivedAt) = .error error :=
    fun _ => rfl
  have hok : ∀ details : StatusDetails,
      some <$> (Except.ok details : Except HTTPException StatusDetails).map
          (fun merged => merged.withArchive archivedAt) =
        .ok (some (details.withArchive archivedAt)) :=
    fun _ => rfl
  unfold sessionUpdateOf
  simp only [ManagedSession.withDetails, mergeSessionAgentOverlay_withArchive]
  simp only [bind, Except.bind, pure, Except.pure, throw, throwThe,
    MonadExceptOf.throw]
  cases body.agent with
  | none =>
      simp only
      repeat' split
      all_goals rfl
  | some update =>
      simp only
      cases mergeSessionAgentOverlay py session.statusDetails version update with
      | error error =>
          simp only [herror, Except.map_error]
          repeat' split
          all_goals rfl
      | ok merged =>
          simp only [hok, Except.map_ok]
          repeat' split
          all_goals rfl

theorem updateSessionRequest_details
    {py : Python} {response : ResponseContext} {body : SessionUpdateRequest}
    {start tx : Tx}
    (htx : updateSessionRequest py response body start = .ok tx) :
    ∃ update, sessionUpdateOf py start.session response.version body = .ok update ∧
      tx.session.statusDetails =
        update.statusDetails.getD start.session.statusDetails := by
  unfold updateSessionRequest at htx
  split at htx
  · cases htx
  · next update hupdate =>
      cases htx
      exact ⟨update, hupdate, rfl⟩

theorem updateSessionRequest_of_update
    {py : Python} {response : ResponseContext} {body : SessionUpdateRequest}
    {start : Tx} {update : SessionUpdate}
    (hupdate : sessionUpdateOf py start.session response.version body = .ok update) :
    ∃ tx, updateSessionRequest py response body start = .ok tx ∧
      tx.session.statusDetails =
        update.statusDetails.getD start.session.statusDetails := by
  unfold updateSessionRequest
  rw [hupdate]
  exact ⟨_, rfl, rfl⟩

/-- The archive of a thread changes nothing but the key of the primary thread. -/
theorem archiveSessionThread_details
    {threadId : String} {threadExists : Bool} {start tx : Tx}
    (htx : archiveSessionThread threadId threadExists start = .ok tx) :
    tx.session.statusDetails = start.session.statusDetails.withArchive
      (if threadId = primaryThreadId start.session then some start.context.now
        else start.session.statusDetails.primaryThreadArchivedAt) := by
  unfold archiveSessionThread at htx
  split at htx
  · cases htx
  by_cases hprimary : threadId = primaryThreadId start.session
  · rw [if_pos hprimary] at htx ⊢
    cases htx
    rfl
  · rw [if_neg hprimary] at htx ⊢
    split at htx
    · cases htx
      rfl
    · cases htx

/-! ## What a transaction makes of the details -/

/-- The details which the transaction leaves when it reads the given ones in
the place of those in the state it reads. -/
def Transaction.detailsFrom (py : Python) (transaction : Transaction)
    (context : Context) (read : Db) (details : StatusDetails) : StatusDetails :=
  match transaction.body py (Tx.begin (read.withDetails details) context) with
  | some tx => tx.session.statusDetails
  | none => details

def Transaction.archivesPrimary (session : ManagedSession) : Transaction → Bool
  | .request (.archiveSessionThread threadId _) =>
      session.deletedAt.isNone && threadId = primaryThreadId session
  | _ => false

/-- The transaction changes the details that it read, beside the key of the
archive. -/
def Transaction.rewritesDetails (py : Python) (session : ManagedSession) :
    Transaction → Bool
  | .request (.updateSession response body) =>
      match sessionUpdateOf py session response.version body with
      | .ok update => update.statusDetails.any (· ≠ session.statusDetails)
      | .error _ => false
  | .outcome history result =>
      session.status = .running && !isWaitingForAction session.stopReason &&
        recordsResult py history result &&
        (session.statusDetails.runtimeRetry.isSome ||
          (!result.requiresAction &&
            match outcomeEvaluationFromHistory py history result with
            | .ok evaluation => evaluation.isSome
            | .error _ => false))
  | .failure exc =>
      match isTransientRuntimeError py exc with
      | .ok transient =>
          transient && handlesFailure py exc session.statusDetails
      | .error _ => false
  | _ => false

/-- The part which a transaction plays for the details. -/
inductive DetailsEffect (py : Python) (context : Context) (read : Db) (tx : Tx)
    (transaction : Transaction) : Prop
  | archived
      (harchives : transaction.archivesPrimary read.session = true)
      (hwritten : tx.session.statusDetails =
        read.session.statusDetails.withArchive (some context.now))
      (hserial : ∀ details, transaction.detailsFrom py context read details =
        details.withArchive (some context.now))
  | carried
      (happended : tx.appended ≠ [])
      (hkept : transaction.rewritesDetails py read.session = false →
        tx.session.statusDetails = read.session.statusDetails)
      (hserial : ∀ archivedAt,
        transaction.detailsFrom py context read
            (read.session.statusDetails.withArchive archivedAt) =
          tx.session.statusDetails.withArchive archivedAt)
  | kept
      (hwritten : tx.session.statusDetails = read.session.statusDetails)
      (hserial : ∀ details,
        transaction.detailsFrom py context read details = details)

theorem Appends.statusDetails
    {before after : Tx} {added : List SessionEvent}
    (happends : Appends before after added) :
    after.session.statusDetails = before.session.statusDetails := by
  rw [happends.session]

theorem sendEvents_statusDetails
    {py : Python} {environment : Option Environment}
    {inputs : List SessionEventInput} {start tx : Tx}
    (htx : sendEvents py environment inputs start = .ok tx) :
    tx.session.statusDetails = start.session.statusDetails := by
  obtain ⟨-, -, rfl⟩ := sendEvents_ok_iff.mp htx
  obtain ⟨added, happends, -, -⟩ := sendLoop_appends py start {} inputs
  have hsent := happends.statusDetails
  unfold settleSend
  split
  · exact hsent
  · split
    · split
      · exact hsent
      · exact hsent
    · exact hsent

/-- The transaction sets no status details. -/
def Transaction.keepsDetails : Transaction → Prop
  | .request (.updateSession _ _) => False
  | .request (.archiveSessionThread _ _) => False
  | .outcome _ _ => False
  | .failure _ => False
  | _ => True

theorem Transaction.body_statusDetails
    {py : Python} {transaction : Transaction} {start tx : Tx}
    (hkeeps : transaction.keepsDetails) (hbody : transaction.body py start = some tx) :
    tx.session.statusDetails = start.session.statusDetails := by
  cases transaction with
  | request call =>
      have hok := Except.toOption_eq_some.mp hbody
      cases call with
      | sendEvents environment inputs => exact sendEvents_statusDetails hok
      | updateSession response body => exact hkeeps.elim
      | archiveSessionThread threadId threadExists => exact hkeeps.elim
      | archiveSession =>
          simp only [Request.handle, ManagedAgents.archiveSession] at hok
          repeat' split at hok
          all_goals cases hok
          rfl
      | deleteSession =>
          simp only [Request.handle, ManagedAgents.deleteSession] at hok
          repeat' split at hok
          all_goals cases hok
          rfl
      | cancelSession =>
          simp only [Request.handle, ManagedAgents.cancelSession] at hok
          repeat' split at hok
          all_goals cases hok
          rfl
      | resumeSession environment =>
          obtain ⟨-, rfl⟩ := resumeSession_ok_iff.mp hok
          rfl
  | start =>
      obtain ⟨-, rfl⟩ := startTurn_eq_some_iff.mp hbody
      rfl
  | load rows =>
      obtain ⟨⟨loaded, written⟩, hloaded, rfl⟩ := Option.map_eq_some_iff.mp hbody
      have hok := Except.toOption_eq_some.mp hloaded
      unfold loadTurn at hok
      repeat' split at hok
      all_goals cases hok
      obtain ⟨added, happends, -⟩ :=
        appendRuntimeContextEvents_appends py start rows.context
      exact happends.statusDetails
  | outcome history result => exact hkeeps.elim
  | failure exc => exact hkeeps.elim

/-- A transaction that leaves the details alone does so whatever they are. -/
theorem DetailsEffect.of_keeps
    {py : Python} {context : Context} {read : Db} {tx : Tx}
    {transaction : Transaction}
    (hbody : transaction.body py (Tx.begin read context) = some tx)
    (hkeeps : ∀ start after, start.session.id = read.session.id →
      transaction.body py start = some after →
      after.session.statusDetails = start.session.statusDetails) :
    DetailsEffect py context read tx transaction := by
  apply DetailsEffect.kept
  · exact hkeeps _ _ rfl hbody
  · intro details
    unfold Transaction.detailsFrom
    split
    · next after hafter => exact hkeeps _ _ rfl hafter
    · rfl

theorem DetailsEffect.of_keepsDetails
    {py : Python} {context : Context} {read : Db} {tx : Tx}
    {transaction : Transaction}
    (hbody : transaction.body py (Tx.begin read context) = some tx)
    (hkeeps : transaction.keepsDetails) :
    DetailsEffect py context read tx transaction :=
  DetailsEffect.of_keeps hbody fun _ _ _ hafter =>
    Transaction.body_statusDetails hkeeps hafter

section

variable {py : Python} {context : Context} {read : Db} {tx : Tx}

theorem updateSession_detailsEffect
    {response : ResponseContext} {body : SessionUpdateRequest}
    (htx : updateSessionRequest py response body (Tx.begin read context) = .ok tx) :
    DetailsEffect py context read tx (.request (.updateSession response body)) := by
  obtain ⟨update, hupdate, hdetails⟩ := updateSessionRequest_details htx
  simp only [Tx.begin_session] at hupdate hdetails
  apply DetailsEffect.carried
  · unfold updateSessionRequest at htx
    split at htx
    · cases htx
    · cases htx
      simp [appendEvent]
  · intro hkept
    unfold Transaction.rewritesDetails at hkept
    simp only [hupdate] at hkept
    rw [hdetails]
    cases hwritten : update.statusDetails with
    | none => rfl
    | some written =>
        rw [hwritten] at hkept
        simpa using hkept
  · intro archivedAt
    have hcarried :
        sessionUpdateOf py
            (Tx.begin (read.withDetails
              (read.session.statusDetails.withArchive archivedAt)) context).session
            response.version body =
          .ok (update.withArchive archivedAt) := by
      have hcommutes :=
        sessionUpdateOf_withArchive py read.session archivedAt response.version body
      rw [hupdate] at hcommutes
      exact hcommutes
    obtain ⟨after, hafter, hafterDetails⟩ :=
      @updateSessionRequest_of_update py _ _ _ _ hcarried
    have hbody :
        Transaction.body py (.request (.updateSession response body))
            (Tx.begin (read.withDetails
              (read.session.statusDetails.withArchive archivedAt)) context) =
          some after :=
      Except.toOption_eq_some.mpr hafter
    unfold Transaction.detailsFrom
    rw [hbody]
    change after.session.statusDetails = _
    rw [hafterDetails, hdetails]
    cases hwritten : update.statusDetails with
    | none =>
        simp only [SessionUpdate.withArchive, hwritten]
        rfl
    | some written =>
        simp only [SessionUpdate.withArchive, hwritten]
        rfl

theorem archiveSessionThread_detailsEffect
    {threadId : String} {threadExists : Bool}
    (htx : archiveSessionThread threadId threadExists (Tx.begin read context) =
      .ok tx) :
    DetailsEffect py context read tx
      (.request (.archiveSessionThread threadId threadExists)) := by
  have hbody : Transaction.body py
      (.request (.archiveSessionThread threadId threadExists))
      (Tx.begin read context) = some tx :=
    Except.toOption_eq_some.mpr htx
  by_cases hprimary : threadId = primaryThreadId read.session
  · unfold archiveSessionThread at htx
    split at htx
    · cases htx
    next hopen =>
    rw [Tx.begin_session, if_pos hprimary] at htx
    cases htx
    apply DetailsEffect.archived
    · have hlive : read.session.deletedAt.isNone = true := by simpa using hopen
      simp [Transaction.archivesPrimary, hlive, hprimary]
    · rfl
    · intro details
      have hafter : Transaction.body py
          (.request (.archiveSessionThread threadId threadExists))
          (Tx.begin (read.withDetails details) context) =
            some (updateSession (Tx.begin (read.withDetails details) context)
              { statusDetails := some (details.withArchive (some context.now)) }) := by
        apply Except.toOption_eq_some.mpr
        change archiveSessionThread threadId threadExists _ = _
        unfold archiveSessionThread
        exact (if_neg hopen).trans (if_pos hprimary)
      unfold Transaction.detailsFrom
      rw [hafter]
      rfl
  · apply DetailsEffect.of_keeps hbody
    intro start after hid hafter
    have hok := Except.toOption_eq_some.mp hafter
    change archiveSessionThread threadId threadExists start = .ok after at hok
    have hother : ¬ threadId = primaryThreadId start.session := by
      unfold primaryThreadId at hprimary ⊢
      rw [hid]
      exact hprimary
    rw [archiveSessionThread_details hok, if_neg hother, StatusDetails.withArchive_self]

theorem commitOutcome_keepsDetails
    {history : List SessionEvent} {result : RuntimeResult} {start : Tx}
    (htx : commitOutcome py history result start = .commit tx)
    (hretry : start.session.statusDetails.runtimeRetry = none)
    (hevaluation : result.requiresAction = true ∨
      outcomeEvaluationFromHistory py history result = .ok none) :
    tx.session.statusDetails = start.session.statusDetails := by
  have hwithout : withoutRuntimeRetry start.session.statusDetails =
      start.session.statusDetails := by
    unfold withoutRuntimeRetry
    rw [← hretry]
  unfold commitOutcome at htx
  split at htx
  · cases htx
  simp only at htx
  split at htx
  · cases htx
  next middle blockingIds hloop =>
  obtain ⟨added, blocked, happends, -⟩ := appendToolEvents_appends hloop
  have hmiddle := happends.statusDetails
  split at htx
  · cases htx
    change withoutRuntimeRetry middle.session.statusDetails = _
    rw [hmiddle, hwithout]
  next hrequires =>
  have hnone := hevaluation.resolve_left hrequires
  rw [hnone] at htx
  cases htx
  obtain ⟨texts, htexts⟩ := appendFinalText_appends py result middle
  change withoutRuntimeRetry
    (appendFinalText py result middle).session.statusDetails = _
  rw [htexts.statusDetails, hmiddle, hwithout]

theorem commitOutcome_detailsEffect
    {history : List SessionEvent} {result : RuntimeResult}
    (htx : commitOutcome py history result (Tx.begin read context) = .commit tx) :
    DetailsEffect py context read tx (.outcome history result) := by
  have hrecords := commitOutcome_recordsResult htx
  obtain ⟨hrunning, hwaiting, -⟩ := commitOutcome_closes htx
  obtain ⟨heffect, -⟩ := commitOutcome_effect htx
  apply DetailsEffect.carried
  · cases heffect with
    | kept hkeeps _ _ => cases hkeeps
    | concluded _ _ _ _ hannounces => exact hannounces.ne_nil
  · intro hkept
    unfold Transaction.rewritesDetails at hkept
    rw [Tx.begin_session] at hrunning hwaiting
    simp only [hrunning, hwaiting, hrecords, decide_true, Bool.not_false,
      Bool.true_and, Bool.or_eq_false_iff, Bool.and_eq_false_iff,
      Bool.not_eq_false'] at hkept
    obtain ⟨hretry, hevaluation⟩ := hkept
    apply commitOutcome_keepsDetails htx
    · simpa using hretry
    · rcases hevaluation with hrequires | hnone
      · exact Or.inl hrequires
      · by_cases hrequires : result.requiresAction = true
        · exact Or.inl hrequires
        · right
          unfold recordsResult at hrecords
          cases hresult : outcomeEvaluationFromHistory py history result with
          | error error =>
              rw [hresult] at hrecords
              simp [hrequires, Except.toOption] at hrecords
          | ok evaluation =>
              rw [hresult] at hnone
              rw [Option.isSome_eq_false_iff.mp hnone |> Option.isNone_iff_eq_none.mp]
  · intro archivedAt
    have hcarried :=
      commitOutcome_withArchive py (Tx.begin read context) archivedAt history result
    rw [htx] at hcarried
    have hbody :
        Transaction.body py (.outcome history result)
            (Tx.begin (read.withDetails
              (read.session.statusDetails.withArchive archivedAt)) context) =
          some (tx.withArchive archivedAt) :=
      TurnReply.commit?_eq_some.mpr hcarried
    unfold Transaction.detailsFrom
    rw [hbody]
    rfl

theorem failTurn_detailsEffect
    {exc : PyException}
    (htx : failTurn py exc (Tx.begin read context) = .ok tx) :
    DetailsEffect py context read tx (.failure exc) := by
  obtain ⟨heffect, -⟩ := failTurn_effect htx
  have hhandles := failTurn_handlesFailure htx
  apply DetailsEffect.carried
  · cases heffect with
    | kept hkeeps _ _ => cases hkeeps
    | rescheduled _ _ _ _ hannounces => exact hannounces.ne_nil
    | failed _ _ hannounces => exact hannounces.ne_nil
  · intro hkept
    unfold Transaction.rewritesDetails at hkept
    rw [Tx.begin_session] at hhandles
    unfold failTurn at htx
    split at htx
    · cases htx
    · next htransient =>
        simp only [htransient, hhandles] at hkept
        cases hkept
    · cases htx
      rfl
  · intro archivedAt
    have hcarried :=
      failTurn_withArchive py (Tx.begin read context) archivedAt exc
    rw [htx] at hcarried
    have hbody :
        Transaction.body py (.failure exc)
            (Tx.begin (read.withDetails
              (read.session.statusDetails.withArchive archivedAt)) context) =
          some (tx.withArchive archivedAt) :=
      Except.toOption_eq_some.mpr hcarried
    unfold Transaction.detailsFrom
    rw [hbody]
    rfl

theorem Transaction.body_details
    {transaction : Transaction}
    (hbody : transaction.body py (Tx.begin read context) = some tx) :
    DetailsEffect py context read tx transaction := by
  cases transaction with
  | request call =>
      have hhandle := Except.toOption_eq_some.mp hbody
      cases call with
      | updateSession response body => exact updateSession_detailsEffect hhandle
      | archiveSessionThread threadId threadExists =>
          exact archiveSessionThread_detailsEffect hhandle
      | _ => exact DetailsEffect.of_keepsDetails hbody trivial
  | start | load rows => exact DetailsEffect.of_keepsDetails hbody trivial
  | outcome history result =>
      exact commitOutcome_detailsEffect (TurnReply.commit?_eq_some.mp hbody)
  | failure exc => exact failTurn_detailsEffect (Except.toOption_eq_some.mp hbody)

end

end ManagedAgents
