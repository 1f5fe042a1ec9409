import ManagedAgents.SystemRuns
import ManagedAgents.Writes

/-!
# Events of clients

Clients choose the types of the events they send, and the source of an event
is read off its type.  A session that is active or waits for actions accepts
only the input types of the API; an idle one accepts any type, so a client can
append what looks like an event of the server.
-/

namespace ManagedAgents

open LabelledRuns SnapshotHistory

/-- The event types which the API defines as inputs. -/
def INPUT_EVENTS : List String :=
  "system.message" :: "user.interrupt" ::
    (USER_EVENTS_THAT_START_WORK ++ ACTION_RESULT_EVENTS)

/-- The sources of the events which the API defines as outputs. -/
def OUTPUT_SOURCES : List String := ["agent", "session", "span"]

theorem eventSource_input
    {eventType : String} (hinput : eventType ∈ INPUT_EVENTS) :
    eventSource eventType ∉ OUTPUT_SOURCES := by
  revert eventType
  decide

/-- A client has chosen only input types, and the source is that of the type. -/
def Attributed (clientTypes : List String) (event : SessionEvent) : Prop :=
  (event.origin = .client → event.type ∈ clientTypes) ∧
    event.source = eventSource event.type

theorem Attributed.output
    {event : SessionEvent} (hevent : Attributed INPUT_EVENTS event)
    (houtput : event.source ∈ OUTPUT_SOURCES) : event.origin = .server := by
  obtain ⟨hclient, hsource⟩ := hevent
  cases horigin : event.origin with
  | server => rfl
  | client =>
      rw [hsource] at houtput
      exact absurd houtput (eventSource_input (hclient horigin))

/-! ## Transactions -/

section

variable {py : Python} {clientTypes : List String} {enqueues : Prop} {start tx : Tx}

theorem appendEvent_attributed
    {origin : EventOrigin} {eventType : String} (payload : Dict)
    (htype : origin = .client → eventType ∈ clientTypes)
    (htx : ∀ event ∈ tx.appended, Attributed clientTypes event) :
    ∀ event ∈ (appendEvent py tx origin eventType payload).appended,
      Attributed clientTypes event := by
  intro event hevent
  rcases List.mem_append.mp hevent with hold | hnew
  · exact htx event hold
  · rw [List.mem_singleton.mp hnew]
    exact ⟨htype, rfl⟩

theorem Written.attributed
    (hwritten : Written py clientTypes enqueues start tx)
    (hstart : ∀ event ∈ start.appended, Attributed clientTypes event) :
    ∀ event ∈ tx.appended, Attributed clientTypes event := by
  induction hwritten with
  | refl => exact hstart
  | update _ update ih => exact ih
  | archived _ ih => exact ih
  | deleted _ ih => exact ih
  | enqueued _ _ trigger metadata ih => exact ih
  | server _ eventType payload ih =>
      exact appendEvent_attributed payload (fun horigin => by cases horigin) ih
  | client _ payload htype ih =>
      exact appendEvent_attributed payload (fun _ => htype) ih

/-- An attributed event stays attributed when more types are allowed. -/
theorem Attributed.mono
    {fewer more : List String} {event : SessionEvent}
    (hevent : Attributed fewer event) (hsubset : fewer ⊆ more) :
    Attributed more event :=
  ⟨fun horigin => hsubset (hevent.1 horigin), hevent.2⟩

end

/-! ## Batches with foreign types -/

/-- The batch names a type which is no input, and nothing refuses it: the
session is open and neither active nor waiting, so that only the shape of the
batch is looked at. -/
def Forges (py : Python) (session : ManagedSession)
    (environment : Option Environment) (inputs : List SessionEventInput) : Prop :=
  (session.deletedAt = none ∧ session.archivedAt = none ∧
    Environment.live environment = true) ∧
  (session.status = .idle ∧ isWaitingForAction session.stopReason = false) ∧
  (validateSystemMessageBatch (inputs.map SessionEventInput.type) = .ok () ∧
    validateDefineOutcomes py inputs = .ok () ∧
    ∀ input ∈ inputs, input.type ∉ ACTION_RESULT_EVENTS) ∧
  ∃ input ∈ inputs, input.type ∉ INPUT_EVENTS

instance (py : Python) (session : ManagedSession) (environment : Option Environment)
    (inputs : List SessionEventInput) :
    Decidable (Forges py session environment inputs) := by
  unfold Forges
  infer_instance

section

variable {py : Python} {tx : Tx} {inputs : List SessionEventInput}

theorem interrupt_inputs
    (htypes : inputs.map SessionEventInput.type = ["user.interrupt"]) :
    ∀ input ∈ inputs, input.type ∈ INPUT_EVENTS := by
  intro input hinput
  have hmem := List.mem_map_of_mem (f := SessionEventInput.type) hinput
  rw [htypes, List.mem_singleton] at hmem
  rw [hmem]
  decide

theorem actionResult_input
    {eventType : String} (hresult : eventType ∈ ACTION_RESULT_EVENTS) :
    eventType ∈ INPUT_EVENTS := by
  revert eventType
  decide

/-- While a session is active or waits for actions, it accepts only inputs. -/
theorem validateBatchForState_inputs
    (hvalid : validateBatchForState py tx inputs = .ok ())
    (hguarded : tx.session.status ∈ ACTIVE_STATUSES ∨
      isWaitingForAction tx.session.stopReason = true) :
    ∀ input ∈ inputs, input.type ∈ INPUT_EVENTS := by
  unfold validateBatchForState at hvalid
  simp only at hvalid
  split at hvalid
  · split at hvalid
    next hinterrupt => exact interrupt_inputs hinterrupt
    next => cases hvalid
  next hinactive =>
  have hwaiting := hguarded.resolve_left hinactive
  rw [if_pos hwaiting] at hvalid
  split at hvalid
  next hinterrupt => exact interrupt_inputs hinterrupt
  next =>
  split at hvalid
  · cases hvalid
  next hresults =>
  intro input hinput
  rw [not_or, not_not] at hresults
  by_cases hsystem : input.type = "system.message"
  · rw [hsystem]
    decide
  · apply actionResult_input
    apply hresults.2 input
    simp [hinput, hsystem]

theorem validateBatchForState_free
    (hidle : tx.session.status = .idle)
    (hfree : isWaitingForAction tx.session.stopReason = false) :
    validateBatchForState py tx inputs = .ok () ↔
      ∀ input ∈ inputs, input.type ∉ ACTION_RESULT_EVENTS := by
  have hinactive : tx.session.status ∉ ACTIVE_STATUSES := by
    rw [hidle]
    decide
  unfold validateBatchForState
  simp only [hinactive, hfree, if_false, Bool.false_eq_true]
  split
  next hresult =>
      obtain ⟨eventType, hmem, hresult⟩ := hresult
      obtain ⟨input, hinput, rfl⟩ := List.mem_map.mp hmem
      simp only [reduceCtorEq, false_iff]
      intro hnone
      exact hnone input hinput hresult
  next hnone =>
      simp only [true_iff]
      intro input hinput hresult
      exact hnone ⟨input.type, List.mem_map_of_mem hinput, hresult⟩

end

/-- An accepted batch holds a foreign type exactly when it forges one. -/
theorem sendEvents_inputs
    {py : Python} {environment : Option Environment}
    {inputs : List SessionEventInput} {tx after : Tx}
    (hsend : sendEvents py environment inputs tx = .ok after)
    (hhonest : ¬ Forges py tx.session environment inputs) :
    ∀ input ∈ inputs, input.type ∈ INPUT_EVENTS := by
  obtain ⟨⟨hdeleted, harchived, hopen, hlive⟩, hvalid, -⟩ :=
    sendEvents_ok_iff.mp hsend
  obtain ⟨hsystem, houtcomes, hstate⟩ := validateEventBatch_ok_iff.mp hvalid
  by_cases hguarded : tx.session.status ∈ ACTIVE_STATUSES ∨
      isWaitingForAction tx.session.stopReason = true
  · exact validateBatchForState_inputs hstate hguarded
  · rw [not_or, Bool.not_eq_true] at hguarded
    have hidle : tx.session.status = .idle := by
      cases hstatus : tx.session.status with
      | idle => rfl
      | terminated => exact absurd hstatus hopen
      | running => simp [hstatus, ACTIVE_STATUSES] at hguarded
      | rescheduling => simp [hstatus, ACTIVE_STATUSES] at hguarded
    have hresults := (validateBatchForState_free hidle hguarded.2).mp hstate
    intro input hinput
    by_contra hforeign
    exact hhonest ⟨⟨hdeleted, harchived, hlive⟩, ⟨hidle, hguarded.2⟩,
      ⟨hsystem, houtcomes, hresults⟩, input, hinput, hforeign⟩

/-- A forging batch is accepted. -/
theorem Forges.accepted
    {py : Python} {environment : Option Environment}
    {inputs : List SessionEventInput} {tx : Tx}
    (hforges : Forges py tx.session environment inputs) :
    ∃ after, sendEvents py environment inputs tx = .ok after := by
  obtain ⟨⟨hdeleted, harchived, hlive⟩, ⟨hidle, hfree⟩, ⟨hsystem, houtcomes, hresults⟩,
    -⟩ := hforges
  have hopen : tx.session.status ≠ .terminated := by
    rw [hidle]
    decide
  have hstate : validateBatchForState py tx inputs = .ok () :=
    (validateBatchForState_free hidle hfree).mpr hresults
  have hvalid := validateEventBatch_ok_iff.mpr ⟨hsystem, houtcomes, hstate⟩
  exact ⟨_, sendEvents_ok_iff.mpr
    ⟨⟨hdeleted, harchived, hopen, hlive⟩, hvalid, rfl⟩⟩

/-- The events of an accepted batch include its client events, in order. -/
theorem sendEvents_client_types
    {py : Python} {environment : Option Environment}
    {inputs : List SessionEventInput} {read : Db} {context : Context} {tx : Tx}
    (hsend : sendEvents py environment inputs (Tx.begin read context) = .ok tx) :
    ∀ input ∈ inputs, ∃ event ∈ tx.appended,
      event.origin = .client ∧ event.type = input.type := by
  obtain ⟨-, -, rfl⟩ := sendEvents_ok_iff.mp hsend
  obtain ⟨added, happends, htypes, horigin⟩ :=
    sendLoop_appends py (Tx.begin read context) {} inputs
  have hsent : (sendLoop py (Tx.begin read context) {} inputs).1.appended = added :=
    happends.appended
  intro input hinput
  have hmem : input.type ∈ added.map SessionEvent.type := by
    rw [htypes]
    exact List.mem_map_of_mem hinput
  obtain ⟨event, hevent, htype⟩ := List.mem_map.mp hmem
  refine ⟨event, ?_, horigin event hevent, htype⟩
  unfold settleSend
  split
  · exact List.mem_append_left _ (hsent ▸ hevent)
  · split
    · split
      · exact hsent ▸ hevent
      · exact hsent ▸ hevent
    · exact hsent ▸ hevent

/-! ## Created sessions -/

theorem validateInitialEventEntries_types
    {py : Python} {initialEvents : List Dict}
    (hvalid : validateInitialEventEntries py initialEvents = .ok ()) :
    ∀ rawEvent ∈ initialEvents,
      initialEventType py rawEvent ∈ DEPLOYMENT_INITIAL_EVENTS := by
  induction initialEvents with
  | nil => simp
  | cons rawEvent rest ih =>
      unfold validateInitialEventEntries at hvalid
      split at hvalid
      · cases hvalid
      next htype =>
      have hrest : validateInitialEventEntries py rest = .ok () := by
        split at hvalid
        · split at hvalid
          · cases hvalid
          · exact hvalid
        · exact hvalid
      intro other hother
      rcases List.mem_cons.mp hother with rfl | hother
      · exact not_not.mp htype
      · exact ih hrest other hother

theorem validateDeploymentInitialEvents_types
    {py : Python} {initialEvents : List Dict}
    (hvalid : validateDeploymentInitialEvents py initialEvents = .ok ()) :
    ∀ rawEvent ∈ initialEvents,
      initialEventType py rawEvent ∈ DEPLOYMENT_INITIAL_EVENTS := by
  unfold validateDeploymentInitialEvents at hvalid
  simp only at hvalid
  split at hvalid
  · cases hvalid
  split at hvalid
  · cases hvalid
  split at hvalid
  · cases hvalid
  next hentries => exact validateInitialEventEntries_types hentries

theorem Written.appendInitialEvents
    {py : Python} {clientTypes : List String} {enqueues : Prop} {start tx : Tx}
    {initialEvents : List Dict} (htx : Written py clientTypes enqueues start tx)
    (htypes : ∀ rawEvent ∈ initialEvents,
      initialEventType py rawEvent ∈ clientTypes) :
    Written py clientTypes enqueues start (appendInitialEvents py tx initialEvents) := by
  unfold ManagedAgents.appendInitialEvents
  induction initialEvents generalizing tx with
  | nil => exact htx
  | cons rawEvent rest ih =>
      have hfirst := htx.client
        (Dict.set rawEvent "type" (.str (initialEventType py rawEvent)))
        (htypes rawEvent List.mem_cons_self)
      exact ih hfirst fun other hother =>
        htypes other (List.mem_cons_of_mem _ hother)

/-- A session comes into being with writes to an empty log. -/
theorem Created.written
    {py : Python} {db : Db} (hcreated : Created py db) :
    ∃ seed context tx,
      Written py DEPLOYMENT_INITIAL_EVENTS False (Tx.begin (emptyDb seed) context) tx ∧
        tx.commit (emptyDb seed) = some db := by
  have hbegin : ∀ seed context, Written py DEPLOYMENT_INITIAL_EVENTS False
      (Tx.begin (emptyDb seed) context) (beginSession py seed context) := by
    intro seed context
    exact Written.refl.server _ _
  cases hcreated with
  | api seed context hcreate => exact ⟨seed, context, _, hbegin seed context, hcreate⟩
  | deployment seed context initialEvents hcreate =>
      unfold createDeploymentSession at hcreate
      split at hcreate
      · cases hcreate
      next hvalid =>
        have htypes := validateDeploymentInitialEvents_types hvalid
        exact ⟨seed, context, _, (hbegin seed context).appendInitialEvents htypes,
          hcreate⟩

/-! ## Whole runs -/

/-- The log of a state tells inputs of clients from outputs of the server. -/
def Db.Attributed (db : Db) : Prop :=
  ∀ event ∈ db.events, ManagedAgents.Attributed INPUT_EVENTS event

/-- The commit of written events with input types keeps a log attributed. -/
theorem Db.Attributed.commit
    {py : Python} {clientTypes : List String} {enqueues : Prop}
    {read current next : Db} {context : Context} {tx : Tx}
    (hcurrent : current.Attributed)
    (hwritten : Written py clientTypes enqueues (Tx.begin read context) tx)
    (htypes : clientTypes ⊆ INPUT_EVENTS)
    (hcommit : tx.commit current = some next) : next.Attributed := by
  intro event hevent
  rw [commit_events hcommit] at hevent
  rcases List.mem_append.mp hevent with hold | hnew
  · exact hcurrent event hold
  · exact (hwritten.attributed (by simp) event hnew).mono htypes

theorem Created.attributed
    {py : Python} {db : Db} (hcreated : Created py db) : db.Attributed := by
  obtain ⟨seed, context, tx, hwritten, hcommit⟩ := hcreated.written
  have hempty : (emptyDb seed).Attributed := by
    intro event hevent
    cases hevent
  exact hempty.commit hwritten (by decide) hcommit

def Transaction.Forging (py : Python) (session : ManagedSession) :
    Transaction → Prop
  | .request (.sendEvents environment inputs) => Forges py session environment inputs
  | _ => False

instance (py : Python) (session : ManagedSession) (transaction : Transaction) :
    Decidable (transaction.Forging py session) := by
  unfold Transaction.Forging
  split
  · infer_instance
  · infer_instance

/-- The step sends no batch that forges an event. -/
def NoForgedEvent (py : Python) (world : World) (label : Label) : Prop :=
  ∀ attempt ∈ world.attempt label,
    ¬ attempt.transaction.Forging py attempt.read.session

instance (py : Python) (world : World) (label : Label) :
    Decidable (NoForgedEvent py world label) :=
  inferInstanceAs
    (Decidable (∀ attempt ∈ world.attempt label,
      ¬ attempt.transaction.Forging py attempt.read.session))

/-- The client types of a transaction which commits without forging. -/
theorem Transaction.clientTypes_inputs
    {py : Python} {transaction : Transaction} {start tx : Tx}
    (hbody : transaction.body py start = some tx)
    (hhonest : ¬ transaction.Forging py start.session) :
    transaction.clientTypes ⊆ INPUT_EVENTS := by
  intro eventType htype
  unfold Transaction.clientTypes at htype
  split at htype
  next environment inputs =>
    have hsend : sendEvents py environment inputs start = .ok tx :=
      Except.toOption_eq_some.mp hbody
    obtain ⟨input, hinput, rfl⟩ := List.mem_map.mp htype
    exact sendEvents_inputs hsend hhonest input hinput
  next => cases htype

/-- A batch adds a client event with a foreign type to no log exactly when it
does not forge one, and in every run without forging batches the events of
agents, sessions and spans are those of the server. -/
theorem client_events_are_inputs
    {py : Python} {db : Db} {labels : List Label} {world : World}
    (hcreated : Created py db)
    (hhonest : AllSteps (step py) (NoForgedEvent py) (World.start db) labels)
    (hrun : run (step py) (World.start db) labels = some world) :
    (∀ commit ∈ world.history, ∀ event ∈ commit.db.events,
        (event.origin = .client → event.type ∈ INPUT_EVENTS) ∧
          (event.source ∈ OUTPUT_SOURCES → event.origin = .server)) ∧
      ∀ environment inputs read context,
        (∀ tx, sendEvents py environment inputs (Tx.begin read context) = .ok tx →
            ∀ event ∈ tx.appended, event.origin = .client →
              event.type ∈ INPUT_EVENTS) ↔
          ¬ Forges py read.session environment inputs := by
  constructor
  · have hattributed : ∀ commit ∈ world.history, commit.db.Attributed := by
      refine @run_history py (NoForgedEvent py)
        (fun history => ∀ commit ∈ history, commit.db.Attributed)
        ?start ?session ?work _ _ _ hcreated hhonest hrun
      case start =>
        intro created hstart commit hcommit
        rw [List.mem_singleton.mp hcommit]
        exact hstart.attributed
      case session =>
        intro before label attempt tx next hbefore hlabel hattempt hcommitted commit
          hcommit
        rcases List.mem_cons.mp hcommit with rfl | hold
        · have htypes := Transaction.clientTypes_inputs hcommitted.body
            (hlabel attempt hattempt)
          exact (hbefore before.last List.mem_cons_self).commit
            (Transaction.body_written hcommitted.body) htypes hcommitted.commit
        · exact hbefore commit hold
      case work =>
        intro before read next hbefore _ hevents commit hcommit
        rcases List.mem_cons.mp hcommit with rfl | hold
        · have hlast := hbefore before.last List.mem_cons_self
          unfold Db.Attributed at *
          rw [hevents]
          exact hlast
        · exact hbefore commit hold
    intro commit hcommit event hevent
    have hevent := hattributed commit hcommit event hevent
    exact ⟨hevent.1, hevent.output⟩
  · intro environment inputs read context
    constructor
    · intro hinputs hforges
      obtain ⟨tx, hsend⟩ :=
        @Forges.accepted py environment inputs (Tx.begin read context) hforges
      obtain ⟨input, hinput, hforeign⟩ := hforges.2.2.2
      obtain ⟨event, hevent, horigin, htype⟩ :=
        sendEvents_client_types hsend input hinput
      apply hforeign
      rw [← htype]
      exact hinputs tx hsend event hevent horigin
    · intro hnone tx hsend event hevent horigin
      have hbody : (Transaction.request (.sendEvents environment inputs)).body py
          (Tx.begin read context) = some tx := Except.toOption_eq_some.mpr hsend
      have hwritten := Transaction.body_written hbody
      have htype := (hwritten.attributed (by simp) event hevent).1 horigin
      obtain ⟨input, hinput, hsame⟩ := List.mem_map.mp htype
      rw [← hsame]
      exact sendEvents_inputs hsend hnone input hinput

/-! ## Runs with and without a forged event -/

theorem sample_turn_events_attributed :
    (∀ event ∈ sampleTurnWorld.db.events,
        event.source ∈ OUTPUT_SOURCES → event.origin = .server) ∧
      ∀ tx, sendEvents samplePython (some sampleEnvironment) [sampleMessage]
          (Tx.begin sampleDb (sampleContext "e")) = .ok tx →
        ∀ event ∈ tx.appended, event.origin = .client → event.type ∈ INPUT_EVENTS := by
  have hturn := client_events_are_inputs sampleDb_created (by decide)
    sampleTurn_run
  constructor
  · intro event hevent
    exact (hturn.1 sampleTurnWorld.last List.mem_cons_self event hevent).2
  · exact (hturn.2 _ _ sampleDb (sampleContext "e")).mpr (by decide)

def sampleForgery : SessionEventInput where
  type := "agent.message"

/-- A client writes a message of the agent into an idle session. -/
theorem client_writes_agent_message :
    ∃ world, run (step samplePython) (World.start sampleDb)
        [sampleSend [sampleForgery] 0 "b"] = some world ∧
      ∃ event ∈ world.db.events, event.source ∈ OUTPUT_SOURCES ∧
        event.origin = .client ∧ event.type ∉ INPUT_EVENTS := by
  have hfacts :
      (run (step samplePython) (World.start sampleDb)
          [sampleSend [sampleForgery] 0 "b"]).map
        (fun world => decide (∃ event ∈ world.db.events,
          event.source ∈ OUTPUT_SOURCES ∧ event.origin = .client ∧
            event.type ∉ INPUT_EVENTS)) = some true := by
    decide
  obtain ⟨world, hrun, hworld⟩ := Option.map_eq_some_iff.mp hfacts
  exact ⟨world, hrun, of_decide_eq_true hworld⟩

end ManagedAgents
