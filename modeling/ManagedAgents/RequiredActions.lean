import ManagedAgents.CommittedStates

/-!
# A waiting session is answerable

The results of both backends name, whenever they require an action, at least
one tool use to wait for.  A session that waits therefore waits for events of
its own log, and for each of them there is a result that is accepted.
-/

namespace ManagedAgents

open SnapshotHistory

/-! ## Results of the backends -/

/-- The results which `_execute` returns: those of the local backend and those
of the OpenAI backend, for any history and any stream. -/
inductive FromBackend (py : Python) : RuntimeResult → Prop
  | localBackend (version : AgentVersion) (history : List SessionEvent)
      (sandboxSummary : Dict) (context : RuntimeContext) (result : RuntimeResult)
      (hresult : executeLocal py version history sandboxSummary context =
        .ok result) :
      FromBackend py result
  | openai (stream : OpenAIStream) : FromBackend py (openaiResult py stream)

/-- A required action is one of the tool events of the result. -/
def NamesRequiredAction (result : RuntimeResult) : Prop :=
  result.requiresAction = true →
    ∃ toolEvent ∈ result.toolEvents,
      isRequiredActionEvent result toolEvent
        (result.toolEvents.any requiresConfirmation) = true

theorem isRequiredActionEvent_of_toolUse
    {result : RuntimeResult} {toolEvent : Dict} {explicit : Bool}
    {eventType : String}
    (hrequires : result.requiresAction = true)
    (htype : Dict.get toolEvent "type" = .str eventType)
    (htoolUse : eventType ∈ TOOL_USE_EVENTS)
    (hexplicit : explicit = true → requiresConfirmation toolEvent = true) :
    isRequiredActionEvent result toolEvent explicit = true := by
  have hexists : ∃ candidate ∈ TOOL_USE_EVENTS,
      Dict.get toolEvent "type" = .str candidate := ⟨eventType, htoolUse, htype⟩
  unfold isRequiredActionEvent
  rw [hrequires]
  simp only [Bool.not_true, Bool.false_eq_true, if_false, hexists, not_true]
  split
  · next h => exact hexplicit h
  · rfl

/-- A result with one unconfirmed tool use waits for it. -/
theorem namesRequiredAction_singleton
    {result : RuntimeResult} {toolEvent : Dict} {eventType : String}
    (htoolEvents : result.toolEvents = [toolEvent])
    (htype : Dict.get toolEvent "type" = .str eventType)
    (htoolUse : eventType ∈ TOOL_USE_EVENTS)
    (hconfirm : requiresConfirmation toolEvent = false) :
    NamesRequiredAction result := by
  intro hrequires
  refine ⟨toolEvent, ?_, ?_⟩
  · rw [htoolEvents]
    exact List.mem_singleton.mpr rfl
  · apply isRequiredActionEvent_of_toolUse hrequires htype htoolUse
    intro hexplicit
    rw [htoolEvents] at hexplicit
    simp [hconfirm] at hexplicit

theorem executeLocal_namesRequiredAction
    {py : Python} {version : AgentVersion} {history : List SessionEvent}
    {sandboxSummary : Dict} {context : RuntimeContext} {result : RuntimeResult}
    (hresult : executeLocal py version history sandboxSummary context =
      .ok result) :
    NamesRequiredAction result := by
  unfold executeLocal at hresult
  simp only at hresult
  split at hresult
  · cases hresult
    intro hrequires
    cases hrequires
  split at hresult
  · cases hresult
  split at hresult
  · cases hresult
    intro hrequires
    cases hrequires
  split at hresult
  · cases hresult
    exact namesRequiredAction_singleton rfl rfl (by decide) rfl
  split at hresult
  · next confirmationTool htool =>
      cases hresult
      rcases firstConfirmationTool_eventType htool with htype | htype
      · apply namesRequiredAction_singleton rfl rfl _ rfl
        rw [htype]
        decide
      · apply namesRequiredAction_singleton rfl rfl _ rfl
        rw [htype]
        decide
  · cases hresult
    intro hrequires
    cases hrequires

theorem openaiResult_namesRequiredAction
    (py : Python) (stream : OpenAIStream) :
    NamesRequiredAction (openaiResult py stream) := by
  intro hrequires
  have hany : (openaiResult py stream).toolEvents.any requiresConfirmation = true :=
    hrequires
  obtain ⟨toolEvent, hmem, hconfirm⟩ := List.any_eq_true.mp hany
  obtain ⟨event, -, hmapped⟩ := List.mem_filterMap.mp hmem
  have htype := mapOpenaiStreamEvent_requiresConfirmation hmapped hconfirm
  refine ⟨toolEvent, hmem, ?_⟩
  apply isRequiredActionEvent_of_toolUse hrequires htype (by decide)
  intro _
  exact hconfirm

theorem FromBackend.namesRequiredAction
    {py : Python} {result : RuntimeResult} (hresult : FromBackend py result) :
    NamesRequiredAction result := by
  cases hresult with
  | localBackend version history sandboxSummary context result hresult =>
      exact executeLocal_namesRequiredAction hresult
  | openai stream => exact openaiResult_namesRequiredAction py stream

/-! ## Waiting sessions -/

/-- The action result which a client sends to answer an event. -/
def answerFor (eventType id : String) : String × Dict :=
  if eventType = "agent.custom_tool_use" then
    ("user.custom_tool_result", [("custom_tool_use_id", .str id)])
  else
    ("user.tool_confirmation",
      [("tool_use_id", .str id), ("result", .str "allow")])

/-- The id is that of a tool use in the log, and a result which targets it
passes the check against it. -/
def AnswerableId (py : Python) (events : List SessionEvent) (id : String) : Prop :=
  ∃ event ∈ events, event.id = id ∧ event.type ∈ TOOL_USE_EVENTS ∧
    ∃ resultType ∈ ACTION_RESULT_EVENTS, ∃ payload,
      actionResultTarget py resultType payload = some id ∧
        validateActionResultMatchesBlocker resultType payload event.type = .ok ()

def Answerable (py : Python) (db : Db) : Prop :=
  ∀ ids, db.session.stopReason = some (.requiresAction ids) →
    (db.session.status = .idle ∧ db.session.deletedAt = none ∨
      db.session.status = .terminated ∧ db.session.deletedAt.isSome = true) ∧
    ids ≠ [] ∧ ids.Nodup ∧ ∀ id ∈ ids, AnswerableId py db.events id

theorem answerableId_of_toolUse
    {py : Python} {events : List SessionEvent} {event : SessionEvent}
    (hevent : event ∈ events) (hid : event.id ≠ "")
    (htype : event.type ∈ TOOL_USE_EVENTS) :
    AnswerableId py events event.id := by
  refine ⟨event, hevent, rfl, htype, (answerFor event.type event.id).1, ?_,
    (answerFor event.type event.id).2, ?_, ?_⟩
  · unfold answerFor
    split
    · simp [ACTION_RESULT_EVENTS]
    · simp [ACTION_RESULT_EVENTS]
  · unfold answerFor
    split
    · simp [actionResultTarget, Dict.get, Json.truthy, hid, Python.str]
    · simp [actionResultTarget, Dict.get, Json.truthy, hid, Python.str]
  · simp only [TOOL_USE_EVENTS, List.mem_cons, List.not_mem_nil, or_false] at htype
    rcases htype with htype | htype | htype
    · rw [htype]
      rfl
    · rw [htype]
      rfl
    · rw [htype]
      rfl

theorem AnswerableId.append
    {py : Python} {events : List SessionEvent} {id : String}
    (hanswerable : AnswerableId py events id) (added : List SessionEvent) :
    AnswerableId py (events ++ added) id := by
  obtain ⟨event, hevent, hrest⟩ := hanswerable
  exact ⟨event, List.mem_append_left added hevent, hrest⟩


/-! ## Every committed state -/

theorem Created.answerable {py : Python} {db : Db} (hcreated : Created py db) :
    Answerable py db := by
  intro ids hstopReason
  have hnone : db.session.stopReason = none :=
    congrArg Control.stopReason hcreated.control
  rw [hnone] at hstopReason
  cases hstopReason

theorem Answerable.of_kept
    {py : Python} {current next : Db} {added : List SessionEvent}
    (hanswerable : Answerable py current)
    (hevents : next.events = current.events ++ added)
    (hcontrol : next.session.control = current.session.control) :
    Answerable py next := by
  have hstatus : next.session.status = current.session.status :=
    congrArg Control.status hcontrol
  have hstopReason : next.session.stopReason = current.session.stopReason :=
    congrArg Control.stopReason hcontrol
  have hdeletedAt : next.session.deletedAt = current.session.deletedAt :=
    congrArg Control.deletedAt hcontrol
  intro ids hids
  rw [hstopReason] at hids
  obtain ⟨hstate, hne, hnodup, hall⟩ := hanswerable ids hids
  refine ⟨?_, hne, hnodup, ?_⟩
  · rw [hstatus, hdeletedAt]
    exact hstate
  · intro id hid
    rw [hevents]
    exact (hall id hid).append added

/-- A state whose stop reason is not `requires_action` has nothing to answer. -/
theorem Answerable.of_typeName
    {py : Python} {db : Db} {control : Control} {reason : StopReason}
    (hcontrol : db.session.control = control)
    (hreason : control.stopReason = some reason)
    (htype : reason.typeName ≠ "requires_action") : Answerable py db := by
  intro ids hids
  have hsame : db.session.stopReason = control.stopReason :=
    congrArg Control.stopReason hcontrol
  rw [hsame, hreason] at hids
  cases hids
  exact absurd rfl htype

/-- A turn of a backend which ends with a required action leaves the session
waiting for events it has just appended. -/
theorem answerable_of_blocks
    {py : Python} {result : RuntimeResult} {current next : Db}
    {appended blocked : List SessionEvent}
    (hresult : NamesRequiredAction result)
    (hrequires : result.requiresAction = true)
    (hwellFormed : WellFormed next)
    (hevents : next.events = current.events ++ appended)
    (hcontrol : next.session.control =
      ⟨.idle, some (.requiresAction (blocked.map SessionEvent.id)), none⟩)
    (hblocks : Blocks result appended blocked) :
    Answerable py next := by
  have hsublist : blocked.Sublist next.events := by
    rw [hevents]
    exact hblocks.sublist.trans (List.sublist_append_right _ _)
  intro ids hids
  have hstopReason : next.session.stopReason =
      some (.requiresAction (blocked.map SessionEvent.id)) :=
    congrArg Control.stopReason hcontrol
  rw [hstopReason] at hids
  cases hids
  refine ⟨?_, ?_, ?_, ?_⟩
  · exact Or.inl ⟨congrArg Control.status hcontrol,
      congrArg Control.deletedAt hcontrol⟩
  · have hne := hblocks.nonempty (hresult hrequires)
    simpa using hne
  · exact hwellFormed.ids.sublist (hsublist.map SessionEvent.id)
  · intro id hid
    obtain ⟨event, hevent, rfl⟩ := List.mem_map.mp hid
    exact answerableId_of_toolUse (hsublist.subset hevent)
      (hblocks.ids event hevent) (hblocks.toolUse event hevent)

/-- A deleted session is never running or idle again. -/
def DeletedStopped (db : Db) : Prop :=
  db.session.deletedAt.isSome = true →
    db.session.status = .terminated ∨ db.session.status = .rescheduling

theorem DeletedStopped.of_control
    {db : Db} {control : Control} (hcontrol : db.session.control = control)
    (hstopped : control.deletedAt.isSome = true →
      control.status = .terminated ∨ control.status = .rescheduling) :
    DeletedStopped db := by
  subst hcontrol
  exact hstopped

/-- The transactions whose results come from a backend. -/
def Transaction.fromBackend (py : Python) : Transaction → Prop
  | .outcome _ result => FromBackend py result
  | _ => True

theorem CommitSpec.deletedStopped
    {py : Python} {transaction : Transaction} {tx : Tx} {current next : Db}
    (hspec : CommitSpec py transaction tx current next)
    (hcurrent : DeletedStopped current) : DeletedStopped next := by
  rcases hspec.control_cases with ⟨-, hcontrol, -⟩ | ⟨-, hread, hwrote⟩
  · exact DeletedStopped.of_control hcontrol hcurrent
  · have hsnapshot : tx.snapshot.session.deletedAt.isSome = true →
        tx.snapshot.session.status = .terminated ∨
          tx.snapshot.session.status = .rescheduling := by
      have hstopped := DeletedStopped.of_control hread hcurrent
      exact hstopped
    cases hspec.effect with
    | kept _ hcontrol _ =>
        exact DeletedStopped.of_control
          (hwrote.trans (hcontrol.trans hread)) hcurrent
    | interrupted _ _ _ hcontrol _ =>
        exact DeletedStopped.of_control (hwrote.trans hcontrol) (by simp)
    | actionSubmitted _ _ _ _ hcontrol _ =>
        exact DeletedStopped.of_control (hwrote.trans hcontrol) (by simp)
    | deleted _ _ hstatus _ _ =>
        exact DeletedStopped.of_control hwrote fun _ => Or.inl hstatus
    | cancelled _ hcontrol _ =>
        exact DeletedStopped.of_control (hwrote.trans hcontrol) (by simp)
    | started _ _ hcontrol _ =>
        exact DeletedStopped.of_control (hwrote.trans hcontrol) (by simp)
    | concluded hrunning _ _ hcontrol _ =>
        apply DeletedStopped.of_control (hwrote.trans hcontrol)
        intro hdeleted
        rcases hsnapshot hdeleted with hstatus | hstatus
        · rw [hrunning] at hstatus
          cases hstatus
        · rw [hrunning] at hstatus
          cases hstatus
    | rescheduled _ _ _ hcontrol _ =>
        exact DeletedStopped.of_control (hwrote.trans hcontrol) (by simp)
    | failed _ hcontrol _ =>
        exact DeletedStopped.of_control (hwrote.trans hcontrol) (by simp)

theorem CommitSpec.answerable
    {py : Python} {transaction : Transaction} {tx : Tx} {current next : Db}
    (hspec : CommitSpec py transaction tx current next)
    (hbackend : transaction.fromBackend py)
    (hstopped : DeletedStopped current) (hcurrent : Answerable py current) :
    Answerable py next := by
  rcases hspec.control_cases with ⟨-, hcontrol, -⟩ | ⟨-, hread, hwrote⟩
  · exact hcurrent.of_kept hspec.events hcontrol
  · cases hspec.effect with
    | kept _ hcontrol _ =>
        exact hcurrent.of_kept hspec.events (hwrote.trans (hcontrol.trans hread))
    | interrupted _ _ _ hcontrol _ =>
        exact Answerable.of_typeName (hwrote.trans hcontrol) rfl (by decide)
    | actionSubmitted _ _ _ _ hcontrol _ =>
        exact Answerable.of_typeName (hwrote.trans hcontrol) rfl (by decide)
    | deleted hdeletedAt _ hstatus hstopReason hmarked =>
        have hreason : next.session.stopReason = current.session.stopReason :=
          (congrArg Control.stopReason hwrote).trans
            (hstopReason.trans (congrArg Control.stopReason hread))
        have hnextStatus : next.session.status = .terminated :=
          (congrArg Control.status hwrote).trans hstatus
        have hnextDeleted : next.session.deletedAt = tx.session.deletedAt :=
          congrArg Control.deletedAt hwrote
        intro ids hids
        rw [hreason] at hids
        obtain ⟨-, hne, hnodup, hall⟩ := hcurrent ids hids
        refine ⟨Or.inr ⟨hnextStatus, ?_⟩, hne, hnodup, ?_⟩
        · rw [hnextDeleted]
          exact hmarked
        · intro id hid
          rw [hspec.events]
          exact (hall id hid).append tx.appended
    | cancelled _ hcontrol _ =>
        exact Answerable.of_typeName (hwrote.trans hcontrol) rfl (by decide)
    | started _ _ hcontrol _ =>
        exact Answerable.of_typeName (hwrote.trans hcontrol) rfl (by decide)
    | concluded hrunning _ hreason hcontrol _ =>
        have hnext := hwrote.trans hcontrol
        rcases hreason with rfl | ⟨hrequires, blocked, rfl, hblocks⟩
        · exact Answerable.of_typeName hnext rfl (by decide)
        · have hdeletedAt : tx.snapshot.session.deletedAt = none := by
            have hsame : tx.snapshot.session.deletedAt =
                current.session.deletedAt := congrArg Control.deletedAt hread
            have hstatus : current.session.status = .running :=
              (congrArg Control.status hread).symm.trans hrunning
            cases hdeleted : current.session.deletedAt with
            | none => rw [hsame, hdeleted]
            | some deletedAt =>
                rcases hstopped (by rw [hdeleted]; rfl) with hstop | hstop
                · rw [hstatus] at hstop
                  cases hstop
                · rw [hstatus] at hstop
                  cases hstop
          rw [hdeletedAt] at hnext
          exact answerable_of_blocks hbackend.namesRequiredAction hrequires
            hspec.wellFormed hspec.events hnext hblocks
    | rescheduled _ _ htype hcontrol _ =>
        apply Answerable.of_typeName (hwrote.trans hcontrol) rfl
        rw [htype]
        decide
    | failed htype hcontrol _ =>
        apply Answerable.of_typeName (hwrote.trans hcontrol) rfl
        rw [htype]
        decide

/-- Under every interleaving of requests and turns of either backend, a
session that waits is idle (or was deleted while it waited), names distinct
tool uses of its own log, and can be answered on each of them. -/
theorem waiting_session_answerable
    {py : Python} {history : List Db}
    (hhistory :
      Interleaved (Created py) (Commits py (Transaction.fromBackend py)) history) :
    ∀ db ∈ history, Answerable py db := by
  have hboth : ∀ db ∈ history, DeletedStopped db ∧ Answerable py db := by
    refine @committed_invariant py _ history
      (fun db => DeletedStopped db ∧ Answerable py db) ?start ?spec ?work hhistory
    case start =>
      intro db hcreated
      exact ⟨DeletedStopped.of_control hcreated.control (by simp),
        hcreated.answerable⟩
    case spec =>
      intro transaction tx current next hbackend _ hcurrent hspec
      exact ⟨hspec.deletedStopped hcurrent.1,
        hspec.answerable hbackend hcurrent.1 hcurrent.2⟩
    case work =>
      intro current next hcurrent hsession hevents
      unfold DeletedStopped Answerable at *
      rw [hsession, hevents]
      exact hcurrent
  intro db hdb
  exact (hboth db hdb).2

/-- A turn of the OpenAI backend which asks for an approval. -/
def sampleApproval : RuntimeResult :=
  openaiResult samplePython
    { events := [{ type := "run_item_stream_event", name := "mcp_approval_requested" }] }

def sampleWaiting : Db :=
  (sampleCommit (.outcome [] sampleApproval) sampleStarted sampleStarted "e").get
    (by decide)

theorem sample_waiting_session_answerable :
    sampleWaiting.session.stopReason = some (.requiresAction ["evt_e0"]) ∧
      Answerable samplePython sampleWaiting := by
  have hsent : Commits samplePython (Transaction.fromBackend samplePython)
      sampleDb sampleDb sampleSent := by
    refine commits_of_sampleCommit ?_ (Option.some_get _).symm
    exact trivial
  have hstarted : Commits samplePython (Transaction.fromBackend samplePython)
      sampleSent sampleSent sampleStarted := by
    refine commits_of_sampleCommit ?_ (Option.some_get _).symm
    exact trivial
  have hwaiting : Commits samplePython (Transaction.fromBackend samplePython)
      sampleStarted sampleStarted sampleWaiting := by
    refine commits_of_sampleCommit ?_ (Option.some_get _).symm
    exact FromBackend.openai _
  have hhistory := Interleaved.commit
    (Interleaved.commit
      (Interleaved.commit (.initial sampleDb_created) List.mem_cons_self hsent)
      List.mem_cons_self hstarted)
    List.mem_cons_self hwaiting
  exact ⟨by decide, waiting_session_answerable hhistory sampleWaiting
    List.mem_cons_self⟩

end ManagedAgents
