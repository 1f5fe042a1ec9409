import ManagedAgents.Library.SnapshotHistory
import ManagedAgents.TurnEffects

/-!
# Committed states of a session

A session is created with its first events, by the API or by a deployment, and
then goes through commits of transactions that read one of the earlier
states.  Every committed state is well formed, and a later state extends the
log of an earlier one.
-/

namespace ManagedAgents

open SequencedLog SnapshotHistory

/-! ## Creation -/

structure SessionSeed where
  id : String
  agentId : String
  agentVersion : ℕ
  environmentId : String
  title : Option String := none
  metadata : Dict := []
  vaultIds : List String := []

/-- The row of `sessions_q.create_session`. -/
def newSession (seed : SessionSeed) : ManagedSession where
  id := seed.id
  agentId := seed.agentId
  agentVersion := seed.agentVersion
  environmentId := seed.environmentId
  title := seed.title
  statusDetails := { vaultIds := seed.vaultIds }
  metadata := seed.metadata

def emptyDb (seed : SessionSeed) : Db where
  session := newSession seed
  events := []
  work := []

def beginSession (py : Python) (seed : SessionSeed) (context : Context) : Tx :=
  appendEvent py (Tx.begin (emptyDb seed) context) .server "session.status_idle"
    [("type", .str "session.status_idle"),
     ("status", .str "idle"),
     ("stop_reason", .dict [("type", .str "end_turn")])]

def createSession (py : Python) (seed : SessionSeed) (context : Context) :
    Option Db :=
  (beginSession py seed context).commit (emptyDb seed)

def initialEventType (py : Python) (rawEvent : Dict) : String :=
  py.str ((Dict.get rawEvent "type").or (.str ""))

def DEPLOYMENT_INITIAL_EVENTS : List String :=
  ["system.message", "user.define_outcome", "user.message"]

/-- The loop of `_validate_deployment_initial_events`. -/
def validateInitialEventEntries (py : Python) :
    List Dict → Except HTTPException Unit
  | [] => .ok ()
  | rawEvent :: rest =>
      if initialEventType py rawEvent ∉ DEPLOYMENT_INITIAL_EVENTS then
        .error ⟨422, "Unsupported deployment initial event type"⟩
      else if initialEventType py rawEvent = "user.define_outcome" then
        match validateUserDefineOutcomeEvent py rawEvent with
        | .error error => .error error
        | .ok () => validateInitialEventEntries py rest
      else validateInitialEventEntries py rest

def validateDeploymentInitialEvents (py : Python) (initialEvents : List Dict) :
    Except HTTPException Unit :=
  let eventTypes := initialEvents.map (initialEventType py)
  if initialEvents = [] then
    .error ⟨422, "Deployment initial_events must contain at least one event"⟩
  else if initialEvents.length > 50 then
    .error ⟨422, "Deployment initial_events supports at most 50 events"⟩
  else
    match validateInitialEventEntries py initialEvents with
    | .error error => .error error
    | .ok () =>
        match validateSystemMessageBatch eventTypes with
        | .error error => .error error
        | .ok () =>
            if "user.message" ∉ eventTypes then
              .error ⟨422, "Deployment initial_events must include a user.message event"⟩
            else .ok ()

def appendInitialEvents (py : Python) (tx : Tx) (initialEvents : List Dict) : Tx :=
  initialEvents.foldl
    (fun tx rawEvent =>
      let eventType := initialEventType py rawEvent
      appendEvent py tx .client eventType
        (Dict.set rawEvent "type" (.str eventType))) tx

/-- The session of `_maybe_create_deployment_session` with its events. -/
def createDeploymentSession (py : Python) (seed : SessionSeed)
    (context : Context) (initialEvents : List Dict) : Option Db :=
  match validateDeploymentInitialEvents py initialEvents with
  | .error _ => none
  | .ok () =>
      (appendInitialEvents py (beginSession py seed context) initialEvents).commit
        (emptyDb seed)

/-- The states in which a session comes into being. -/
inductive Created (py : Python) (db : Db) : Prop
  | api (seed : SessionSeed) (context : Context)
      (hcreate : createSession py seed context = some db)
  | deployment (seed : SessionSeed) (context : Context)
      (initialEvents : List Dict)
      (hcreate :
        createDeploymentSession py seed context initialEvents = some db)

theorem appendInitialEvents_appends
    (py : Python) (tx : Tx) (initialEvents : List Dict) :
    ∃ added, Appends tx (appendInitialEvents py tx initialEvents) added ∧
      ∀ event ∈ added, event.origin = .client := by
  unfold appendInitialEvents
  induction initialEvents generalizing tx with
  | nil => exact ⟨[], Appends.refl tx, by simp⟩
  | cons rawEvent rest ih =>
      have hfirst := appendEvent_appends py tx .client
        (initialEventType py rawEvent)
        (Dict.set rawEvent "type" (.str (initialEventType py rawEvent)))
      obtain ⟨added, happends, horigin⟩ := ih _
      refine ⟨_, hfirst.trans happends, ?_⟩
      intro event hevent
      rcases List.mem_cons.mp hevent with rfl | hevent
      · rfl
      · exact horigin event hevent

/-- Both kinds of creation commit the first status event and client events. -/
theorem Created.spec {py : Python} {db : Db} (hcreated : Created py db) :
    ∃ seed context tx added,
      Appends (beginSession py seed context) tx added ∧
      (∀ event ∈ added, event.origin = .client) ∧
      tx.commit (emptyDb seed) = some db := by
  cases hcreated with
  | api seed context hcreate =>
      exact ⟨seed, context, _, [], Appends.refl _, by simp, hcreate⟩
  | deployment seed context initialEvents hcreate =>
      obtain ⟨added, happends, horigin⟩ := appendInitialEvents_appends py
        (beginSession py seed context) initialEvents
      unfold createDeploymentSession at hcreate
      split at hcreate
      · cases hcreate
      · exact ⟨seed, context, _, added, happends, horigin, hcreate⟩

/-! ## A sample session -/

/-- An interpreter which answers as Python does on the values used below. -/
def samplePython : Python where
  repr := fun _ => "..."
  lowerUnicode := fun text => text
  intOfStr := fun _ => none
  floatOfStr := fun _ => none
  floatOfInt := fun value => some (.finite value)
  loads := fun _ => none
  dumps := fun _ => "null"
  isoformat := fun now =>
    if now = 0 then "1970-01-01T00:00:00+00:00" else "1970-01-01T00:00:05+00:00"

def sampleContext (tag : String) : Context where
  now := 0
  uuid := fun index => tag ++ toString index

def sampleSeed : SessionSeed where
  id := "sess_1"
  agentId := "agent_1"
  agentVersion := 1
  environmentId := "env_1"

def sampleDb : Db :=
  (createSession samplePython sampleSeed (sampleContext "a")).get (by decide)

theorem sampleDb_created : Created samplePython sampleDb :=
  Created.api sampleSeed (sampleContext "a") (Option.some_get _).symm

/-! ## Commits of sequenced transactions -/

theorem Tx.commit_eq_some {tx : Tx} {current next : Db} :
    tx.commit current = some next ↔
      ¬ tx.Violates current ∧
        next =
          { session := flushSession tx.snapshot.session tx.session current.session
            events := current.events ++ tx.appended
            work := current.work ++ tx.enqueued } := by
  unfold Tx.commit
  split
  · next hviolates => simp [hviolates]
  · next hkeeps => simp [hkeeps, eq_comm]

@[simp] theorem flushColumn_same {α : Type} [DecidableEq α] (value current : α) :
    flushColumn value value current = current := by
  simp [flushColumn]

@[simp] theorem flushColumn_current {α : Type} [DecidableEq α] (value written : α) :
    flushColumn value written value = written := by
  unfold flushColumn
  split
  · next hsame => exact hsame.symm
  · rfl

theorem flushColumn_of_read {α : Type} [DecidableEq α] {read current : α}
    (written : α) (hread : read = current) :
    flushColumn read written current = written := by
  rw [hread, flushColumn_current]

theorem flushColumn_of_written {α : Type} [DecidableEq α] {read written : α}
    (current : α) (hwritten : written = read) :
    flushColumn read written current = current := by
  rw [hwritten, flushColumn_same]

/-- The log carries the numbers `1, …, last_event_seq`, and every event has
its own id. -/
structure WellFormed (db : Db) : Prop where
  gapFree : GapFree SessionEvent.seq db.events
  counter : db.session.lastEventSeq = db.events.length
  ids : (db.events.map SessionEvent.id).Nodup

/-- On a numbered log a page from the start is a prefix. -/
theorem listEvents_eq_take
    {log : List SessionEvent} (hlog : GapFree SessionEvent.seq log) (limit : ℕ) :
    listEvents log 0 limit = log.take limit := by
  have hall : (log.filter fun event => 0 < event.seq) = log := by
    rw [hlog.filter_after]
    rfl
  unfold listEvents
  rw [hall, hlog.insertionSort_eq]

section

variable {tx : Tx} {current next : Db}

theorem commit_events (hcommit : tx.commit current = some next) :
    next.events = current.events ++ tx.appended := by
  rw [(Tx.commit_eq_some.mp hcommit).2]

/-- A transaction with events read the whole current log. -/
theorem Sequenced.snapshot_events_eq
    (hsequenced : Sequenced tx) (hsnapshot : WellFormed tx.snapshot)
    (hcurrent : WellFormed current)
    (hextends : tx.snapshot.events <+: current.events)
    (hcommit : tx.commit current = some next) (hne : tx.appended ≠ []) :
    tx.snapshot.events = current.events := by
  obtain ⟨hkeeps, -⟩ := Tx.commit_eq_some.mp hcommit
  have hunique : ¬ Collides SessionEvent.seq current.events tx.appended :=
    fun hcollides => hkeeps (Or.inl hcollides)
  have hbound : tx.snapshot.session.lastEventSeq ≤ current.events.length := by
    rw [hsnapshot.counter]
    exact hextends.length_le
  have hcounter := counter_eq_of_not_collides hcurrent.gapFree
    hsequenced.numbered hne hbound hunique
  rw [hsnapshot.counter] at hcounter
  exact hextends.eq_of_length hcounter

theorem Sequenced.commit_wellFormed
    (hsequenced : Sequenced tx) (hsnapshot : WellFormed tx.snapshot)
    (hcurrent : WellFormed current)
    (hextends : tx.snapshot.events <+: current.events)
    (hcommit : tx.commit current = some next) :
    WellFormed next := by
  have hread := hsequenced.snapshot_events_eq hsnapshot hcurrent hextends hcommit
  obtain ⟨hkeeps, hnext⟩ := Tx.commit_eq_some.mp hcommit
  simp only [Tx.Violates, not_or, not_not] at hkeeps
  obtain ⟨hseq, hid, hnodup, -⟩ := hkeeps
  have hbound : tx.snapshot.session.lastEventSeq ≤ current.events.length := by
    rw [hsnapshot.counter]
    exact hextends.length_le
  subst hnext
  constructor
  · exact hcurrent.gapFree.append_of_not_collides hsequenced.numbered hbound hseq
  · by_cases hne : tx.appended = []
    · have hsame :
          tx.session.lastEventSeq = tx.snapshot.session.lastEventSeq := by
        rw [hsequenced.counter, hne]
        rfl
      simp only [flushSession]
      rw [flushColumn_of_written _ hsame, hcurrent.counter, hne, List.append_nil]
    · have hcounter :
          tx.snapshot.session.lastEventSeq = current.session.lastEventSeq := by
        rw [hsnapshot.counter, hcurrent.counter, hread hne]
      simp only [flushSession]
      rw [flushColumn_of_read _ hcounter, hsequenced.counter, hcounter,
        hcurrent.counter, List.length_append]
  · rw [List.map_append, List.nodup_append]
    refine ⟨hcurrent.ids, hnodup, ?_⟩
    intro old hold added hadded heq
    obtain ⟨oldEvent, holdEvent, rfl⟩ := List.mem_map.mp hold
    obtain ⟨newEvent, hnewEvent, rfl⟩ := List.mem_map.mp hadded
    exact hid ⟨newEvent, hnewEvent, oldEvent, holdEvent, heq.symm⟩

end

/-- `uuid4` returns ids that no event uses. -/
structure FreshUuids (db : Db) (context : Context) (count : ℕ) : Prop where
  distinct : ((List.range count).map context.uuid).Nodup
  events : ∀ index < count, ∀ event ∈ db.events,
    event.id ≠ "evt" ++ "_" ++ context.uuid index

instance (db : Db) (context : Context) (count : ℕ) :
    Decidable (FreshUuids db context count) :=
  decidable_of_iff
    (((List.range count).map context.uuid).Nodup ∧
      ∀ index < count, ∀ event ∈ db.events,
        event.id ≠ "evt" ++ "_" ++ context.uuid index)
    ⟨fun h => ⟨h.1, h.2⟩, fun h => ⟨h.distinct, h.events⟩⟩

/-- With fresh ids, the events of a transaction on the state that it read meet
every constraint. -/
theorem FreshUuids.not_violates
    {db : Db} {context : Context} {count : ℕ} {tx : Tx}
    (hfresh : FreshUuids db context count) (hwellFormed : WellFormed db)
    (hnumbered : NumberedFrom SessionEvent.seq db.session.lastEventSeq tx.appended)
    (hids : tx.appended.map SessionEvent.id =
      (List.range count).map fun index => "evt" ++ "_" ++ context.uuid index)
    (hwork : ¬ Collides EnvironmentWork.id db.work tx.enqueued) :
    ¬ tx.Violates db := by
  have hseq : ¬ Collides SessionEvent.seq db.events tx.appended := by
    apply not_collides_of_current hwellFormed.gapFree
    rw [← hwellFormed.counter]
    exact hnumbered
  have hid : ¬ Collides SessionEvent.id db.events tx.appended := by
    rintro ⟨event, hevent, old, hold, heq⟩
    have hmem : event.id ∈ tx.appended.map SessionEvent.id :=
      List.mem_map_of_mem hevent
    rw [hids] at hmem
    obtain ⟨index, hindex, hnew⟩ := List.mem_map.mp hmem
    exact hfresh.events index (List.mem_range.mp hindex) old hold
      (heq.symm.trans hnew.symm)
  have hnodup : (tx.appended.map SessionEvent.id).Nodup := by
    rw [hids]
    have hinjective : Function.Injective fun text : String =>
        "evt" ++ "_" ++ text := by
      intro first second heq
      exact (String.append_right_inj _).mp heq
    have hmapped := hfresh.distinct.map hinjective
    rwa [List.map_map] at hmapped
  simp only [Tx.Violates, not_or, not_not]
  exact ⟨hseq, hid, hnodup, hwork⟩

theorem emptyDb_wellFormed (seed : SessionSeed) : WellFormed (emptyDb seed) where
  gapFree := numberedFrom_nil 0
  counter := rfl
  ids := List.nodup_nil

theorem Created.wellFormed {py : Python} {db : Db} (hcreated : Created py db) :
    WellFormed db := by
  obtain ⟨seed, context, tx, added, happends, -, hcommit⟩ := hcreated.spec
  have hsnapshot : tx.snapshot = emptyDb seed := happends.snapshot
  have hsequenced : Sequenced tx :=
    ((Sequenced.begin (emptyDb seed) context).appendEvent _ _ _ _).appends happends
  apply hsequenced.commit_wellFormed _ (emptyDb_wellFormed seed) _ hcommit
  · rw [hsnapshot]
    exact emptyDb_wellFormed seed
  · rw [hsnapshot]

theorem Created.control {py : Python} {db : Db} (hcreated : Created py db) :
    db.session.control = ⟨.idle, none, none⟩ := by
  obtain ⟨seed, context, tx, added, happends, -, hcommit⟩ := hcreated.spec
  have hsnapshot : tx.snapshot = emptyDb seed := happends.snapshot
  rw [(Tx.commit_eq_some.mp hcommit).2]
  simp only [flushSession, hsnapshot, happends.session]
  rfl

/-! ## Commits of session transactions -/

/-- What a committed transaction did to the current state: either it appended
nothing and left the fenced columns alone, or it read the current log and the
current fenced columns and wrote its own state machine over them. -/
structure CommitSpec (py : Python) (transaction : Transaction) (tx : Tx)
    (current next : Db) : Prop where
  effect :
    Effect py tx.snapshot.session tx.session tx.appended transaction
  disciplined : Disciplined tx.snapshot tx
  wellFormed : WellFormed next
  events : next.events = current.events ++ tx.appended
  quiet : tx.appended = [] → next.session.fenced = current.session.fenced
  readEvents : tx.appended ≠ [] → tx.snapshot.events = current.events
  readFenced :
    tx.appended ≠ [] → tx.snapshot.session.fenced = current.session.fenced
  wrote : tx.appended ≠ [] → next.session.control = tx.session.control

/-- An older state and a newer one: the log has only grown, and while it has
not, no fenced column has changed. -/
structure Earlier (older newer : Db) : Prop where
  events : older.events <+: newer.events
  fenced : older.events.length = newer.events.length →
    older.session.fenced = newer.session.fenced

theorem Earlier.refl (db : Db) : Earlier db db where
  events := List.prefix_rfl
  fenced := fun _ => rfl

theorem Earlier.trans {first second third : Db}
    (hfront : Earlier first second) (hback : Earlier second third) :
    Earlier first third where
  events := hfront.events.trans hback.events
  fenced := by
    intro hlength
    have hle := hfront.events.length_le
    have hle' := hback.events.length_le
    rw [hfront.fenced (by omega), hback.fenced (by omega)]

theorem flushSession_fenced
    {read written current : ManagedSession}
    (hquiet : written.fenced = read.fenced) :
    (flushSession read written current).fenced = current.fenced := by
  have htitle : written.title = read.title :=
    ManagedSession.column_of_fenced ManagedSession.title (fun _ => rfl) hquiet
  have hstatus : written.status = read.status :=
    ManagedSession.column_of_fenced ManagedSession.status (fun _ => rfl) hquiet
  have hstopReason : written.stopReason = read.stopReason :=
    ManagedSession.column_of_fenced ManagedSession.stopReason (fun _ => rfl) hquiet
  have hrunState : written.runState = read.runState :=
    ManagedSession.column_of_fenced ManagedSession.runState (fun _ => rfl) hquiet
  have hsandboxState : written.sandboxState = read.sandboxState :=
    ManagedSession.column_of_fenced ManagedSession.sandboxState (fun _ => rfl) hquiet
  have hmetadata : written.metadata = read.metadata :=
    ManagedSession.column_of_fenced ManagedSession.metadata (fun _ => rfl) hquiet
  have hcounter : written.lastEventSeq = read.lastEventSeq :=
    ManagedSession.column_of_fenced ManagedSession.lastEventSeq (fun _ => rfl) hquiet
  have hdeletedAt : written.deletedAt = read.deletedAt :=
    ManagedSession.column_of_fenced ManagedSession.deletedAt (fun _ => rfl) hquiet
  simp [flushSession, ManagedSession.fenced, htitle, hstatus, hstopReason,
    hrunState, hsandboxState, hmetadata, hcounter, hdeletedAt]

theorem flushSession_control
    {read written current : ManagedSession}
    (hread : read.fenced = current.fenced) :
    (flushSession read written current).control = written.control := by
  have hstatus : read.status = current.status :=
    ManagedSession.column_of_fenced ManagedSession.status (fun _ => rfl) hread
  have hstopReason : read.stopReason = current.stopReason :=
    ManagedSession.column_of_fenced ManagedSession.stopReason (fun _ => rfl) hread
  have hdeletedAt : read.deletedAt = current.deletedAt :=
    ManagedSession.column_of_fenced ManagedSession.deletedAt (fun _ => rfl) hread
  simp [flushSession, ManagedSession.control, flushColumn_of_read _ hstatus,
    flushColumn_of_read _ hstopReason, flushColumn_of_read _ hdeletedAt]

/-- The commit of any session transaction, whatever earlier state it read. -/
theorem Transaction.commit_spec
    {py : Python} {transaction : Transaction} {snapshot current next : Db}
    {context : Context} {tx : Tx}
    (hsnapshot : WellFormed snapshot) (hcurrent : WellFormed current)
    (hearlier : Earlier snapshot current)
    (hbody : transaction.body py (Tx.begin snapshot context) = some tx)
    (hcommit : tx.commit current = some next) :
    CommitSpec py transaction tx current next := by
  obtain ⟨heffect, hdisciplined⟩ := Transaction.body_effect hbody
  obtain rfl := hdisciplined.snapshot_eq
  have hsequenced := hdisciplined.sequenced
  have hread := hsequenced.snapshot_events_eq hsnapshot hcurrent hearlier.events
    hcommit
  have hfenced : tx.appended ≠ [] →
      tx.snapshot.session.fenced = current.session.fenced := by
    intro hne
    exact hearlier.fenced (congrArg List.length (hread hne))
  have hsession :
      next.session =
        flushSession tx.snapshot.session tx.session current.session := by
    rw [(Tx.commit_eq_some.mp hcommit).2]
  exact
    { effect := heffect
      disciplined := hdisciplined
      wellFormed := hsequenced.commit_wellFormed hsnapshot hcurrent
        hearlier.events hcommit
      events := commit_events hcommit
      quiet := by
        intro hnil
        rw [hsession]
        exact flushSession_fenced (hdisciplined.quiet hnil)
      readEvents := hread
      readFenced := hfenced
      wrote := by
        intro hne
        rw [hsession]
        exact flushSession_control (hfenced hne) }

theorem CommitSpec.earlier
    {py : Python} {transaction : Transaction} {tx : Tx} {current next : Db}
    (hspec : CommitSpec py transaction tx current next) :
    Earlier current next where
  events := by
    rw [hspec.events]
    exact List.prefix_append _ _
  fenced := by
    intro hlength
    rw [hspec.events, List.length_append] at hlength
    have hnil : tx.appended = [] := List.length_eq_zero_iff.mp (by omega)
    exact (hspec.quiet hnil).symm

/-- A transaction that changes the state machine appends events. -/
theorem Effect.kept_or_appended
    {py : Python} {before after : ManagedSession}
    {appended : List SessionEvent} {transaction : Transaction}
    (heffect : Effect py before after appended transaction)
    (hquiet : appended = [] → after.control = before.control) :
    (transaction.keepsControl ∧ after.control = before.control ∧
        ∀ event ∈ appended, isStatusEvent event = false) ∨
      appended ≠ [] := by
  cases heffect with
  | kept hkeeps hcontrol hevents => exact Or.inl ⟨hkeeps, hcontrol, hevents⟩
  | interrupted _ _ _ _ hannounces => exact Or.inr hannounces.ne_nil
  | actionSubmitted _ _ _ hwaiting hcontrol _ =>
      right
      intro hnil
      have hsame : after.stopReason = before.stopReason :=
        congrArg Control.stopReason (hquiet hnil)
      have hsubmitted : after.stopReason = some .actionSubmitted :=
        congrArg Control.stopReason hcontrol
      rw [← hsame, hsubmitted] at hwaiting
      cases hwaiting
  | deleted hdeletedAt _ _ _ hmarked =>
      right
      intro hnil
      have hsame : after.deletedAt = before.deletedAt :=
        congrArg Control.deletedAt (hquiet hnil)
      rw [hsame, hdeletedAt] at hmarked
      cases hmarked
  | cancelled _ _ hannounces => exact Or.inr hannounces.ne_nil
  | started _ _ _ hannounces => exact Or.inr hannounces.ne_nil
  | concluded _ _ _ _ hannounces => exact Or.inr hannounces.ne_nil
  | rescheduled _ _ _ _ hannounces => exact Or.inr hannounces.ne_nil
  | failed _ _ hannounces => exact Or.inr hannounces.ne_nil

/-- On the state machine, every commit is a step from the current state: it
keeps it, or it had read it. -/
theorem CommitSpec.control_cases
    {py : Python} {transaction : Transaction} {tx : Tx} {current next : Db}
    (hspec : CommitSpec py transaction tx current next) :
    (transaction.keepsControl ∧
        next.session.control = current.session.control ∧
        ∀ event ∈ tx.appended, isStatusEvent event = false) ∨
      (tx.appended ≠ [] ∧
        tx.snapshot.session.control = current.session.control ∧
        next.session.control = tx.session.control) := by
  have hquiet : tx.appended = [] →
      tx.session.control = tx.snapshot.session.control := by
    intro hnil
    exact ManagedSession.control_of_fenced (hspec.disciplined.quiet hnil)
  by_cases hnil : tx.appended = []
  · rcases hspec.effect.kept_or_appended hquiet with ⟨hkeeps, -, hevents⟩ | hne
    · have hcontrol :=
        ManagedSession.control_of_fenced (hspec.quiet hnil)
      exact Or.inl ⟨hkeeps, hcontrol, hevents⟩
    · exact absurd hnil hne
  · have hread :=
      ManagedSession.control_of_fenced (hspec.readFenced hnil)
    exact Or.inr ⟨hnil, hread, hspec.wrote hnil⟩

/-! ## Histories -/

/-- One commit: of a session transaction of the allowed kind, or of a write
to the work queue, which leaves the session and its log alone. -/
def Commits (py : Python) (allowed : Transaction → Prop)
    (snapshot current next : Db) : Prop :=
  (∃ transaction context tx, allowed transaction ∧
      Transaction.body py transaction (Tx.begin snapshot context) = some tx ∧
      tx.commit current = some next) ∨
    (next.session = current.session ∧ next.events = current.events)

theorem WellFormed.of_eq
    {current next : Db} (hcurrent : WellFormed current)
    (hsession : next.session = current.session)
    (hevents : next.events = current.events) : WellFormed next where
  gapFree := by
    rw [hevents]
    exact hcurrent.gapFree
  counter := by
    rw [hsession, hevents]
    exact hcurrent.counter
  ids := by
    rw [hevents]
    exact hcurrent.ids

section

variable {py : Python} {allowed : Transaction → Prop} {history : List Db}

theorem committed_states
    (hhistory : Interleaved (Created py) (Commits py allowed) history) :
    (∀ db ∈ history, WellFormed db) ∧
      history.Pairwise fun newer older => Earlier older newer := by
  apply hhistory.invariant Earlier.refl fun _ _ _ => Earlier.trans
  · intro db hcreated
    exact hcreated.wellFormed
  · intro snapshot current next hsnapshot hcurrent hearlier hcommit
    rcases hcommit with
      ⟨transaction, context, tx, -, hbody, hcommit⟩ | ⟨hsession, hevents⟩
    · have hspec :=
        Transaction.commit_spec hsnapshot hcurrent hearlier hbody hcommit
      exact ⟨hspec.wellFormed, hspec.earlier⟩
    · refine ⟨hcurrent.of_eq hsession hevents, ?_, ?_⟩
      · rw [hevents]
      · intro _
        rw [hsession]

/-- A property of created sessions which commits preserve holds of every
committed state. -/
theorem committed_invariant
    {Property : Db → Prop}
    (hstart : ∀ db, Created py db → Property db)
    (hspec : ∀ transaction tx current next, allowed transaction →
      WellFormed current → Property current →
      CommitSpec py transaction tx current next → Property next)
    (hwork : ∀ current next, Property current →
      next.session = current.session → next.events = current.events →
      Property next)
    (hhistory : Interleaved (Created py) (Commits py allowed) history) :
    ∀ db ∈ history, Property db := by
  have hinvariant :
      (∀ db ∈ history, WellFormed db ∧ Property db) ∧
        history.Pairwise fun newer older => Earlier older newer := by
    apply hhistory.invariant Earlier.refl fun _ _ _ => Earlier.trans
    · intro db hcreated
      exact ⟨hcreated.wellFormed, hstart db hcreated⟩
    · intro snapshot current next hsnapshot hcurrent hearlier hcommit
      rcases hcommit with
        ⟨transaction, context, tx, hallowed, hbody, hcommit⟩ | ⟨hsession, hevents⟩
      · have hcommitted := Transaction.commit_spec hsnapshot.1 hcurrent.1
          hearlier hbody hcommit
        have hnext := hspec transaction tx current next hallowed hcurrent.1
          hcurrent.2 hcommitted
        exact ⟨⟨hcommitted.wellFormed, hnext⟩, hcommitted.earlier⟩
      · refine ⟨⟨hcurrent.1.of_eq hsession hevents, ?_⟩, ?_, ?_⟩
        · exact hwork current next hcurrent.2 hsession hevents
        · rw [hevents]
        · intro _
          rw [hsession]
  intro db hdb
  exact (hinvariant.1 db hdb).2

end

/-! ## A sample history -/

def sampleEnvironment : Environment where
  id := "env_1"
  config := .dict [("type", .str "cloud")]

def sampleVersion : AgentVersion where
  id := "agentver_1"
  agentId := "agent_1"
  version := 1
  name := "agent"
  model := .dict []
  system := none
  description := none
  tools := []
  mcpServers := []
  skills := []
  multiagent := .null
  runtime := .dict []
  metadata := []

def sampleRows : TurnRows where
  agentExists := true
  version := some sampleVersion
  environment := some sampleEnvironment
  context := {}

def sampleMessage : SessionEventInput where
  type := "user.message"
  fields := [("content", .str "hello")]

/-- The commit of a transaction on the current state, whatever state it read. -/
def sampleCommit (transaction : Transaction) (read current : Db) (tag : String) :
    Option Db :=
  (transaction.body samplePython (Tx.begin read (sampleContext tag))).bind
    fun tx => tx.commit current

theorem commits_of_sampleCommit
    {allowed : Transaction → Prop} {transaction : Transaction}
    {read current next : Db} {tag : String} (hallowed : allowed transaction)
    (hcommit : sampleCommit transaction read current tag = some next) :
    Commits samplePython allowed read current next := by
  obtain ⟨tx, hbody, hnext⟩ := Option.bind_eq_some_iff.mp hcommit
  exact Or.inl ⟨transaction, sampleContext tag, tx, hallowed, hbody, hnext⟩

def sampleSent : Db :=
  (sampleCommit (.request (.sendEvents (some sampleEnvironment) [sampleMessage]))
    sampleDb sampleDb "b").get (by decide)

def sampleStarted : Db :=
  (sampleCommit .start sampleSent sampleSent "c").get (by decide)

/-- An archiving that has read the session before its turn started. -/
def sampleArchived : Db :=
  (sampleCommit (.request .archiveSession) sampleSent sampleStarted "d").get
    (by decide)

theorem sampleHistory_interleaved
    {commits : Db → Db → Db → Prop}
    (hcommits : ∀ {transaction read current next tag},
      sampleCommit transaction read current tag = some next →
        commits read current next) :
    Interleaved (Created samplePython) commits
      [sampleArchived, sampleStarted, sampleSent, sampleDb] := by
  have hsent : commits sampleDb sampleDb sampleSent :=
    hcommits (Option.some_get _).symm
  have hstarted : commits sampleSent sampleSent sampleStarted :=
    hcommits (Option.some_get _).symm
  have harchived : commits sampleSent sampleStarted sampleArchived :=
    hcommits (Option.some_get _).symm
  refine Interleaved.commit ?_ (List.mem_cons_of_mem _ List.mem_cons_self) harchived
  refine Interleaved.commit ?_ List.mem_cons_self hstarted
  exact Interleaved.commit (.initial sampleDb_created) List.mem_cons_self hsent

end ManagedAgents
