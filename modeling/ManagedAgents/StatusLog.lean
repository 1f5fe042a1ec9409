import ManagedAgents.CommittedStates

/-!
# The status column and the log

The last status event which the server appended names the status and the stop
reason of the row, in every committed state of a session that is not deleted.
-/

namespace ManagedAgents

open SnapshotHistory

def lastStatusEvent (events : List SessionEvent) : Option SessionEvent :=
  latestEvent isStatusEvent events

/-- The event carries no stop reason, or the one of the row.  The row may have
gone on to `action_submitted`, and it has none before its first turn. -/
def StopReasonLogged (py : Python) (session : ManagedSession)
    (event : SessionEvent) : Prop :=
  Dict.get event.payload "stop_reason" = .null ∨
    (∃ reason, session.stopReason = some reason ∧
      Dict.get event.payload "stop_reason" = reason.toJson py) ∨
    session.stopReason = some .actionSubmitted ∨
    session.stopReason = none ∧ event.seq = 1

def StatusLogged (py : Python) (db : Db) : Prop :=
  ∃ event, lastStatusEvent db.events = some event ∧
    statusNamed event.type = some db.session.status ∧
    StopReasonLogged py db.session event

/-! ## Scanning an extended log -/

theorem lastStatusEvent_append_of_none
    {events added : List SessionEvent}
    (hadded : ∀ event ∈ added, isStatusEvent event = false) :
    lastStatusEvent (events ++ added) = lastStatusEvent events := by
  unfold lastStatusEvent
  rw [latestEvent_append, latestEvent_eq_none_iff.mpr hadded, Option.none_or]

theorem lastStatusEvent_append_announced
    {py : Python} {session : ManagedSession} (events : List SessionEvent)
    {added : List SessionEvent} (hannounces : Announces py session added) :
    ∃ event, lastStatusEvent (events ++ added) = some event ∧
      Names py session event := by
  obtain ⟨front, last, rfl, hnames⟩ := hannounces
  have hlast : isStatusEvent last = true := by
    simp [isStatusEvent, hnames.origin, hnames.type]
  refine ⟨last, ?_, hnames⟩
  unfold lastStatusEvent latestEvent
  simp [hlast]

theorem StatusLogged.of_announces
    {py : Python} {db : Db} {session : ManagedSession}
    {events added : List SessionEvent}
    (hevents : db.events = events ++ added)
    (hcontrol : db.session.control = session.control)
    (hannounces : Announces py session added) :
    StatusLogged py db := by
  have hstatus : db.session.status = session.status :=
    congrArg Control.status hcontrol
  have hstopReason : db.session.stopReason = session.stopReason :=
    congrArg Control.stopReason hcontrol
  obtain ⟨event, hlast, hnames⟩ :=
    lastStatusEvent_append_announced events hannounces
  refine ⟨event, ?_, ?_, ?_⟩
  · rw [hevents]
    exact hlast
  · rw [hnames.type, hstatus, statusNamed_statusEventType]
  · unfold StopReasonLogged
    rw [hstopReason]
    rcases hnames.stopReason with hnone | hreason
    · exact Or.inl hnone
    · exact Or.inr (Or.inl hreason)

theorem StatusLogged.of_kept
    {py : Python} {current next : Db} {added : List SessionEvent}
    (hlogged : StatusLogged py current)
    (hevents : next.events = current.events ++ added)
    (hcontrol : next.session.control = current.session.control)
    (hadded : ∀ event ∈ added, isStatusEvent event = false) :
    StatusLogged py next := by
  have hstatus : next.session.status = current.session.status :=
    congrArg Control.status hcontrol
  have hstopReason : next.session.stopReason = current.session.stopReason :=
    congrArg Control.stopReason hcontrol
  obtain ⟨event, hlast, hnamed, hreason⟩ := hlogged
  refine ⟨event, ?_, ?_, ?_⟩
  · rw [hevents, lastStatusEvent_append_of_none hadded]
    exact hlast
  · rw [hstatus]
    exact hnamed
  · unfold StopReasonLogged at *
    rw [hstopReason]
    exact hreason

/-! ## Creation and commits -/

theorem Created.statusLogged {py : Python} {db : Db} (hcreated : Created py db) :
    StatusLogged py db := by
  obtain ⟨seed, context, tx, added, happends, horigin, hcommit⟩ := hcreated.spec
  have hfirst : ∃ event, (beginSession py seed context).appended = [event] ∧
      event.type = "session.status_idle" ∧ event.origin = .server ∧
        event.seq = 1 :=
    ⟨_, rfl, rfl, rfl, rfl⟩
  obtain ⟨first, hfirst, htype, hserver, hseq⟩ := hfirst
  have hevents : db.events = [first] ++ added := by
    rw [commit_events hcommit]
    change ([] : List SessionEvent) ++ tx.appended = [first] ++ added
    rw [happends.appended, hfirst, List.nil_append]
  have hstatus : db.session.status = .idle :=
    congrArg Control.status hcreated.control
  have hstopReason : db.session.stopReason = none :=
    congrArg Control.stopReason hcreated.control
  have hclient : ∀ event ∈ added, isStatusEvent event = false := by
    intro event hevent
    exact isStatusEvent_eq_false_of_client (horigin event hevent)
  refine ⟨first, ?_, ?_, ?_⟩
  · rw [hevents, lastStatusEvent_append_of_none hclient]
    simp [lastStatusEvent, latestEvent, isStatusEvent, htype, hserver, statusNamed]
  · rw [htype, hstatus]
    rfl
  · exact Or.inr (Or.inr (Or.inr ⟨hstopReason, hseq⟩))

theorem CommitSpec.statusLogged
    {py : Python} {transaction : Transaction} {tx : Tx} {current next : Db}
    (hspec : CommitSpec py transaction tx current next)
    (hcurrent : current.session.deletedAt = none → StatusLogged py current)
    (hnext : next.session.deletedAt = none) :
    StatusLogged py next := by
  rcases hspec.control_cases with ⟨-, hcontrol, hevents⟩ | ⟨hne, hread, hwrote⟩
  · have hdeletedAt : next.session.deletedAt = current.session.deletedAt :=
      congrArg Control.deletedAt hcontrol
    have hlogged := hcurrent (hdeletedAt.symm.trans hnext)
    exact hlogged.of_kept hspec.events hcontrol hevents
  · have hcurrentRead :
        tx.snapshot.session.deletedAt = current.session.deletedAt :=
      congrArg Control.deletedAt hread
    have hwroteDeleted : next.session.deletedAt = tx.session.deletedAt :=
      congrArg Control.deletedAt hwrote
    cases hspec.effect with
    | kept _ hcontrol hevents =>
        have hsame : next.session.control = current.session.control := by
          rw [hwrote, hcontrol, hread]
        have hdeletedAt : next.session.deletedAt = current.session.deletedAt :=
          congrArg Control.deletedAt hsame
        have hlogged := hcurrent (hdeletedAt.symm.trans hnext)
        exact hlogged.of_kept hspec.events hsame hevents
    | actionSubmitted _ hdeletedAt hidle _ hcontrol hevents =>
        obtain ⟨event, hlast, hnamed, -⟩ :=
          hcurrent (hcurrentRead.symm.trans hdeletedAt)
        have hstatus : current.session.status = .idle := by
          have hsame : tx.snapshot.session.status = current.session.status :=
            congrArg Control.status hread
          rw [← hsame, hidle]
        have hnextControl := hwrote.trans hcontrol
        have hnextStatus : next.session.status = .idle :=
          congrArg Control.status hnextControl
        have hnextReason : next.session.stopReason = some .actionSubmitted :=
          congrArg Control.stopReason hnextControl
        refine ⟨event, ?_, ?_, ?_⟩
        · rw [hspec.events, lastStatusEvent_append_of_none hevents]
          exact hlast
        · rw [hnamed, hstatus, hnextStatus]
        · exact Or.inr (Or.inr (Or.inl hnextReason))
    | deleted _ _ _ _ hmarked =>
        rw [← hwroteDeleted, hnext] at hmarked
        cases hmarked
    | interrupted _ _ _ _ hannounces =>
        exact StatusLogged.of_announces hspec.events hwrote hannounces
    | cancelled _ _ hannounces =>
        exact StatusLogged.of_announces hspec.events hwrote hannounces
    | started _ _ _ hannounces =>
        exact StatusLogged.of_announces hspec.events hwrote hannounces
    | concluded _ _ _ _ hannounces =>
        exact StatusLogged.of_announces hspec.events hwrote hannounces
    | rescheduled _ _ _ _ hannounces =>
        exact StatusLogged.of_announces hspec.events hwrote hannounces
    | failed _ _ hannounces =>
        exact StatusLogged.of_announces hspec.events hwrote hannounces

/-- In every committed state of a session that is not deleted, under every
interleaving of requests and turn phases, the last status event of the server
names the status and the stop reason of the row. -/
theorem status_column_agrees_with_log
    {py : Python} {history : List Db}
    (hhistory : Interleaved (Created py) (Commits py fun _ => True) history) :
    ∀ db ∈ history, db.session.deletedAt = none → StatusLogged py db := by
  refine @committed_invariant py _ history
    (fun db => db.session.deletedAt = none → StatusLogged py db)
    ?start ?spec ?work hhistory
  case start =>
    intro db hcreated _
    exact hcreated.statusLogged
  case spec =>
    intro transaction tx current next _ _ hcurrent hspec hnext
    exact hspec.statusLogged hcurrent hnext
  case work =>
    intro current next hcurrent hsession hevents hnext
    rw [hsession] at hnext
    have hlogged := hcurrent hnext
    unfold StatusLogged at *
    rw [hsession, hevents]
    exact hlogged

theorem sample_status_agrees_with_log : StatusLogged samplePython sampleArchived :=
  status_column_agrees_with_log
    (sampleHistory_interleaved (commits_of_sampleCommit trivial))
    sampleArchived List.mem_cons_self (by decide)

end ManagedAgents
