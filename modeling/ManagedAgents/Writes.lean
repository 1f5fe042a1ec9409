import ManagedAgents.Transactions

/-!
# What transactions are made of

The body of every session transaction is a sequence of a few writes: updates
of columns, appended events and enqueued work.  A property which these writes
keep holds of all transactions at once.
-/

namespace ManagedAgents

/-- The transaction has come from `start` by writes; clients have chosen the
types of their events among `clientTypes`, and work is enqueued only if it may
be. -/
inductive Written (py : Python) (clientTypes : List String) (enqueues : Prop)
    (start : Tx) : Tx → Prop
  | refl : Written py clientTypes enqueues start start
  | update {tx : Tx} (htx : Written py clientTypes enqueues start tx)
      (update : SessionUpdate) :
      Written py clientTypes enqueues start (updateSession tx update)
  | archived {tx : Tx} (htx : Written py clientTypes enqueues start tx) :
      Written py clientTypes enqueues start (markArchived tx)
  | deleted {tx : Tx} (htx : Written py clientTypes enqueues start tx) :
      Written py clientTypes enqueues start (markDeleted tx)
  | server {tx : Tx} (htx : Written py clientTypes enqueues start tx) (eventType : String)
      (payload : Dict) :
      Written py clientTypes enqueues start (appendEvent py tx .server eventType payload)
  | client {tx : Tx} (htx : Written py clientTypes enqueues start tx) {eventType : String}
      (payload : Dict) (htype : eventType ∈ clientTypes) :
      Written py clientTypes enqueues start (appendEvent py tx .client eventType payload)
  | enqueued {tx : Tx} (htx : Written py clientTypes enqueues start tx) (hmay : enqueues)
      (trigger : String) (metadata : Dict) :
      Written py clientTypes enqueues start (enqueueSessionRun tx trigger metadata)

section

variable {py : Python} {clientTypes : List String} {enqueues : Prop} {start tx : Tx}

theorem Written.sendLoop
    {inputs : List SessionEventInput}
    (htx : Written py clientTypes enqueues start tx)
    (htypes : ∀ input ∈ inputs, input.type ∈ clientTypes) (flags : SendFlags) :
    Written py clientTypes enqueues start (sendLoop py tx flags inputs).1 := by
  induction inputs generalizing tx flags with
  | nil => exact htx
  | cons input rest ih =>
      have hfirst := htx.client input.payload (htypes input List.mem_cons_self)
      have hrest := fun other hother =>
        htypes other (List.mem_cons_of_mem _ hother)
      unfold ManagedAgents.sendLoop
      exact ih hfirst hrest _

theorem Written.settleSend
    (htx : Written py clientTypes enqueues start tx) {flags : SendFlags}
    (hmay : flags.shouldRun = true → flags.shouldInterrupt = false → enqueues) :
    Written py clientTypes enqueues start (settleSend py tx flags) := by
  unfold ManagedAgents.settleSend
  split
  · exact (htx.update _).server _ _
  next hinterrupt =>
  split
  next hrun =>
    have hmay := hmay hrun (by simpa using hinterrupt)
    split
    · exact (htx.update _).enqueued hmay _ _
    · exact htx.enqueued hmay _ _
  next => exact htx

theorem Written.appendRuntimeContextEvents
    (htx : Written py clientTypes enqueues start tx) (context : RuntimeContext) :
    Written py clientTypes enqueues start (appendRuntimeContextEvents py tx context) := by
  unfold ManagedAgents.appendRuntimeContextEvents
  induction context.mcpErrors generalizing tx with
  | nil => exact htx
  | cons error rest ih => exact ih (htx.server _ _)

theorem Written.appendToolEvents
    {result : RuntimeResult} {explicit : Bool} {after : Tx}
    {blockingIds ids : List String} {toolEvents : List Dict}
    (htx : Written py clientTypes enqueues start tx)
    (hloop : appendToolEvents py result explicit tx blockingIds toolEvents =
      .ok (after, ids)) :
    Written py clientTypes enqueues start after := by
  induction toolEvents generalizing tx blockingIds with
  | nil =>
      simp only [ManagedAgents.appendToolEvents, Except.ok.injEq, Prod.mk.injEq] at hloop
      obtain ⟨rfl, -⟩ := hloop
      exact htx
  | cons toolEvent rest ih =>
      unfold ManagedAgents.appendToolEvents at hloop
      split at hloop
      · cases hloop
      split at hloop
      · exact ih (htx.server _ _) hloop
      · cases hloop

theorem Written.commitOutcome
    {history : List SessionEvent} {result : RuntimeResult} {after : Tx}
    (htx : Written py clientTypes enqueues start tx)
    (hcommit : commitOutcome py history result tx = .commit after) :
    Written py clientTypes enqueues start after := by
  unfold ManagedAgents.commitOutcome at hcommit
  split at hcommit
  · cases hcommit
  simp only at hcommit
  split at hcommit
  · cases hcommit
  next middle blockingIds hloop =>
  have hmiddle := htx.appendToolEvents hloop
  split at hcommit
  · cases hcommit
    exact (hmiddle.update _).server _ _
  split at hcommit
  · cases hcommit
  next evaluation hevaluation =>
  cases hcommit
  have htext :
      Written py clientTypes enqueues start (appendFinalText py result middle) := by
    unfold appendFinalText
    split
    · exact hmiddle.server _ _
    · exact hmiddle
  have hevaluated : Written py clientTypes enqueues start
      (appendEvaluation py evaluation (appendFinalText py result middle)).2 := by
    unfold appendEvaluation
    cases evaluation with
    | none => exact htext
    | some evaluation => exact htext.server _ _
  exact (hevaluated.update _).server _ _

theorem Written.failTurn
    {exc : PyException} {after : Tx} (htx : Written py clientTypes enqueues start tx)
    (hfail : failTurn py exc tx = .ok after) :
    Written py clientTypes enqueues start after := by
  unfold ManagedAgents.failTurn at hfail
  split at hfail
  · cases hfail
  · unfold markTransientRuntimeFailure at hfail
    simp only at hfail
    repeat' split at hfail
    all_goals cases hfail
    · exact ((htx.update _).server _ _).server _ _
    · exact ((htx.update _).server _ _).server _ _
  · cases hfail
    exact ((htx.update _).server _ _).server _ _

end

/-- The event types which the client of the transaction has sent. -/
def Transaction.clientTypes : Transaction → List String
  | .request (.sendEvents _ inputs) => inputs.map SessionEventInput.type
  | _ => []

/-- The transaction may enqueue work: it resumes the session, or it sends a
batch that asks for a run without interrupting one. -/
def Transaction.mayEnqueue (py : Python) (start : Tx) : Transaction → Prop
  | .request (.resumeSession _) => True
  | .request (.sendEvents _ inputs) =>
      (sendLoop py start {} inputs).2.shouldRun = true ∧
        (sendLoop py start {} inputs).2.shouldInterrupt = false
  | _ => False

section

variable {py : Python} {start tx : Tx}

theorem requestHandle_written
    {call : Request} (htx : call.handle py start = .ok tx) :
    Written py (Transaction.request call).clientTypes
      ((Transaction.request call).mayEnqueue py start) start tx := by
  cases call with
  | updateSession response body =>
      simp only [Request.handle, updateSessionRequest] at htx
      split at htx
      · cases htx
      · cases htx
        exact (Written.refl.update _).server _ _
  | archiveSession =>
      simp only [Request.handle, archiveSession] at htx
      repeat' split at htx
      all_goals cases htx
      exact Written.refl.archived
  | deleteSession =>
      simp only [Request.handle, deleteSession] at htx
      repeat' split at htx
      all_goals cases htx
      exact Written.refl.deleted.server _ _
  | cancelSession =>
      simp only [Request.handle, cancelSession] at htx
      repeat' split at htx
      all_goals cases htx
      exact (Written.refl.update _).server _ _
  | resumeSession environment =>
      simp only [Request.handle, resumeSession] at htx
      repeat' split at htx
      all_goals cases htx
      exact Written.refl.enqueued trivial _ _
  | sendEvents environment inputs =>
      obtain ⟨-, -, rfl⟩ := sendEvents_ok_iff.mp htx
      have htypes : ∀ input ∈ inputs,
          input.type ∈ inputs.map SessionEventInput.type :=
        fun _ hinput => List.mem_map_of_mem hinput
      exact (Written.refl.sendLoop htypes {}).settleSend
        fun hrun hinterrupt => ⟨hrun, hinterrupt⟩
  | archiveSessionThread threadId threadExists =>
      simp only [Request.handle, archiveSessionThread] at htx
      repeat' split at htx
      all_goals cases htx
      · exact Written.refl.update _
      · exact Written.refl

theorem Transaction.body_written
    {transaction : Transaction} (htx : transaction.body py start = some tx) :
    Written py transaction.clientTypes (transaction.mayEnqueue py start) start tx := by
  cases transaction with
  | request call => exact requestHandle_written (Except.toOption_eq_some.mp htx)
  | start =>
      simp only [Transaction.body, startTurn] at htx
      repeat' split at htx
      all_goals cases htx
      exact (Written.refl.update _).server _ _
  | load rows =>
      obtain ⟨⟨loaded, after⟩, hloaded, rfl⟩ := Option.map_eq_some_iff.mp htx
      have hok := Except.toOption_eq_some.mp hloaded
      unfold loadTurn at hok
      repeat' split at hok
      all_goals cases hok
      exact Written.refl.appendRuntimeContextEvents _
  | outcome history result =>
      exact Written.refl.commitOutcome (TurnReply.commit?_eq_some.mp htx)
  | failure exc => exact Written.refl.failTurn (Except.toOption_eq_some.mp htx)

end

end ManagedAgents
