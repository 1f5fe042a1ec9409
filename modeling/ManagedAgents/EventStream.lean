import ManagedAgents.EventLog
import ManagedAgents.Library.CursorPaging
import ManagedAgents.Library.LabelledRuns

/-!
# The event stream

The loop behind the stream routes polls the log through a cursor and yields
the events of one thread, or all of them.  The cursor moves only with a
yielded event, so a page without events of the thread is read again.
-/

namespace ManagedAgents

open LabelledRuns SequencedLog SnapshotHistory CursorPaging

/-! ## Threads of events -/

def eventThreadId (py : Python) (event : SessionEvent) : Option String :=
  let value := Dict.get event.payload "thread_id"
  if value.truthy then some (py.str value)
  else
    match Dict.get event.payload "thread" with
    | .dict thread =>
        if (Dict.get thread "id").truthy then some (py.str (Dict.get thread "id"))
        else none
    | _ => none

def eventBelongsToThread (py : Python) (event : SessionEvent)
    (threadId primaryThreadId : String) : Bool :=
  if threadId = primaryThreadId then
    eventThreadId py event ∈ [none, some "", some primaryThreadId]
  else eventThreadId py event = some threadId

/-- The stream yields the event. -/
def inStream (py : Python) (session : ManagedSession) (threadId : Option String)
    (event : SessionEvent) : Bool :=
  threadId.all fun thread =>
    eventBelongsToThread py event thread (primaryThreadId session)

/-! ## The loop -/

def STREAM_PAGE_LIMIT : ℕ := 100

/-- `list_events` from any number a client may name, also a negative one. -/
def listEventsFrom (events : List SessionEvent) (afterSeq : ℤ) (limit : ℕ) :
    List SessionEvent :=
  ((events.filter fun event => afterSeq < event.seq).insertionSort
    fun left right => left.seq ≤ right.seq).take limit

inductive StreamFrame
  | event (event : SessionEvent)
  | ping
  | sessionNotFound

structure EventStream where
  currentSeq : ℤ
  frames : List StreamFrame := []
  connected : Bool := true

def EventStream.events (stream : EventStream) : List SessionEvent :=
  stream.frames.filterMap fun frame =>
    match frame with
    | .event event => some event
    | _ => none

/-- The loop over one page: the new `current_seq` and the events it yields. -/
def streamPage (py : Python) (session : ManagedSession)
    (threadId : Option String) : ℤ → List SessionEvent → ℤ × List SessionEvent
  | currentSeq, [] => (currentSeq, [])
  | currentSeq, event :: rest =>
      if !inStream py session threadId event then
        streamPage py session threadId currentSeq rest
      else
        let streamed := streamPage py session threadId event.seq rest
        (streamed.1, event :: streamed.2)

/-- What one round of the loop meets: a closed connection, or the state which
its queries read. -/
inductive StreamPoll
  | disconnected
  | read (db : Db)

def pollStep (py : Python) (threadId : Option String) (stream : EventStream)
    (poll : StreamPoll) : Option EventStream :=
  if !stream.connected then none
  else
    match poll with
    | .disconnected => some { stream with connected := false }
    | .read db =>
        if db.session.deletedAt.isSome then
          some
            { stream with
              frames := stream.frames ++ [.sessionNotFound]
              connected := false }
        else
          match listEventsFrom db.events stream.currentSeq STREAM_PAGE_LIMIT with
          | [] => some { stream with frames := stream.frames ++ [.ping] }
          | events =>
              let streamed :=
                streamPage py db.session threadId stream.currentSeq events
              some
                { stream with
                  currentSeq := streamed.1
                  frames := stream.frames ++ streamed.2.map .event }

/-! ## Growing logs -/

/-- The polls of a connected client read one session that is not deleted,
and its log grows from poll to poll. -/
structure Polled (sessionId : String) (polls : List Db) : Prop where
  session : ∀ db ∈ polls, db.session.id = sessionId
  notDeleted : ∀ db ∈ polls, db.session.deletedAt = none
  gapFree : ∀ db ∈ polls, GapFree SessionEvent.seq db.events
  grows : polls.Pairwise fun older newer => older.events <+: newer.events

theorem sequenced_sessionId
    {py : Python} {history : List Db}
    (hhistory : Interleaved (Created py) SequencedCommit history) :
    ∃ sessionId, ∀ db ∈ history, db.session.id = sessionId := by
  induction hhistory with
  | @initial first hfirst =>
      refine ⟨first.session.id, ?_⟩
      intro db hdb
      rw [List.mem_singleton.mp hdb]
  | @commit snapshot current next past hpast hread hcommit ih =>
      obtain ⟨sessionId, hsame⟩ := ih
      have hcurrent : current.session.id = sessionId :=
        hsame current List.mem_cons_self
      obtain ⟨tx, -, -, hnext⟩ := hcommit
      refine ⟨sessionId, ?_⟩
      intro db hdb
      rcases List.mem_cons.mp hdb with rfl | hold
      · rw [(Tx.commit_eq_some.mp hnext).2]
        exact hcurrent
      · exact hsame db hold

/-- Reads of committed states, none older than the one before, are of this
kind. -/
theorem committed_polls
    {py : Python} {history polls : List Db} {ages : List ℕ}
    (hhistory : Interleaved (Created py) SequencedCommit history)
    (hages : ages.Pairwise fun older newer => newer ≤ older)
    (hpolls : ages.map (fun age => history[age]?) = polls.map some)
    (hopen : ∀ db ∈ polls, db.session.deletedAt = none) :
    ∃ sessionId, Polled sessionId polls := by
  obtain ⟨hwellFormed, hordered⟩ := sequenced_states hhistory
  obtain ⟨sessionId, hsession⟩ := sequenced_sessionId hhistory
  have hread : ∀ db ∈ polls, ∃ age ∈ ages, history[age]? = some db := by
    intro db hdb
    have hmem : some db ∈ ages.map fun age => history[age]? := by
      rw [hpolls]
      exact List.mem_map_of_mem hdb
    exact List.mem_map.mp hmem
  have hmem : ∀ db ∈ polls, db ∈ history := by
    intro db hdb
    obtain ⟨age, -, hage⟩ := hread db hdb
    exact List.mem_of_getElem? hage
  refine ⟨sessionId, fun db hdb => hsession db (hmem db hdb), hopen,
    fun db hdb => (hwellFormed db (hmem db hdb)).gapFree, ?_⟩
  clear hread hmem hopen
  induction polls generalizing ages with
  | nil => exact List.Pairwise.nil
  | cons db rest ih =>
      cases ages with
      | nil => simp at hpolls
      | cons age older =>
          simp only [List.map_cons, List.cons.injEq] at hpolls
          obtain ⟨hdb, hrest⟩ := hpolls
          obtain ⟨hnewest, hages⟩ := List.pairwise_cons.mp hages
          refine List.pairwise_cons.mpr ⟨?_, ih hages hrest⟩
          intro other hother
          have hmem : some other ∈ older.map fun age => history[age]? := by
            rw [hrest]
            exact List.mem_map_of_mem hother
          obtain ⟨newer, hnewer, hget⟩ := List.mem_map.mp hmem
          rcases (hnewest newer hnewer).eq_or_lt with rfl | hlt
          · rw [hdb] at hget
            cases hget
            exact List.prefix_rfl
          · obtain ⟨hnewerLt, rfl⟩ := List.getElem?_eq_some_iff.mp hget
            obtain ⟨holderLt, rfl⟩ := List.getElem?_eq_some_iff.mp hdb
            exact List.pairwise_iff_getElem.mp hordered newer age hnewerLt holderLt hlt

/-! ## One poll -/

def seqKey (event : SessionEvent) : ℤ := event.seq

theorem GapFree.ordered
    {log : List SessionEvent} (hlog : GapFree SessionEvent.seq log) :
    Ordered seqKey log := by
  apply hlog.pairwise_lt.imp
  intro left right hlt
  unfold seqKey
  exact_mod_cast hlt

theorem listEventsFrom_eq_page
    {log : List SessionEvent} (hlog : GapFree SessionEvent.seq log) (afterSeq : ℤ)
    (limit : ℕ) :
    listEventsFrom log afterSeq limit = page seqKey log afterSeq limit := by
  unfold listEventsFrom page seqKey
  rw [List.Pairwise.insertionSort_eq]
  apply (hlog.pairwise_lt.filter _).imp
  intro left right hlt
  exact hlt.le

theorem streamPage_eq_scan
    (py : Python) (session : ManagedSession) (threadId : Option String)
    (currentSeq : ℤ) (events : List SessionEvent) :
    streamPage py session threadId currentSeq events =
      scan seqKey (inStream py session threadId) currentSeq events := by
  induction events generalizing currentSeq with
  | nil => rfl
  | cons event rest ih =>
      by_cases hevent : inStream py session threadId event = true
      · simp [streamPage, scan, hevent, ih, seqKey]
      · simp [streamPage, scan, hevent, ih]

section

variable {py : Python} {threadId : Option String} {stream : EventStream} {db : Db}

theorem pollStep_read
    (hconnected : stream.connected = true) (hopen : db.session.deletedAt = none)
    (hlog : GapFree SessionEvent.seq db.events) :
    ∃ next, pollStep py threadId stream (.read db) = some next ∧
      next.connected = true ∧
      next.currentSeq = (scan seqKey (inStream py db.session threadId)
        stream.currentSeq (page seqKey db.events stream.currentSeq
          STREAM_PAGE_LIMIT)).1 ∧
      next.events = stream.events ++ (scan seqKey (inStream py db.session threadId)
        stream.currentSeq (page seqKey db.events stream.currentSeq
          STREAM_PAGE_LIMIT)).2 := by
  rw [← listEventsFrom_eq_page hlog, ← streamPage_eq_scan]
  unfold pollStep
  simp only [hconnected, hopen, Bool.not_true, Bool.false_eq_true, if_false,
    Option.isSome_none]
  cases hpage : listEventsFrom db.events stream.currentSeq STREAM_PAGE_LIMIT with
  | nil =>
      refine ⟨_, rfl, rfl, rfl, ?_⟩
      simp [EventStream.events, streamPage]
  | cons event rest =>
      refine ⟨_, rfl, rfl, rfl, ?_⟩
      simp [EventStream.events, List.filterMap_append, List.filterMap_map]

end

/-! ## What the loop promises -/

/-- A poll that finds events moves the cursor on. -/
def PollProgresses (py : Python) (threadId : Option String) (stream : EventStream) :
    StreamPoll → Prop
  | .disconnected => True
  | .read db =>
      listEventsFrom db.events stream.currentSeq STREAM_PAGE_LIMIT ≠ [] →
        ∀ next, pollStep py threadId stream (.read db) = some next →
          stream.currentSeq < next.currentSeq

/-- A poll that finds events finds one of the thread among them. -/
def FindsOwnEvent (py : Python) (threadId : Option String) (stream : EventStream) :
    StreamPoll → Prop
  | .disconnected => True
  | .read db =>
      listEventsFrom db.events stream.currentSeq STREAM_PAGE_LIMIT ≠ [] →
        ∃ event ∈ listEventsFrom db.events stream.currentSeq STREAM_PAGE_LIMIT,
          inStream py db.session threadId event = true

instance (py : Python) (threadId : Option String) (stream : EventStream)
    (poll : StreamPoll) : Decidable (FindsOwnEvent py threadId stream poll) := by
  unfold FindsOwnEvent
  split
  · infer_instance
  · infer_instance

/-- The events which a stream from `afterSeq` has to yield up to a number. -/
def eventsToStream (py : Python) (db : Db) (threadId : Option String)
    (afterSeq upTo : ℤ) : List SessionEvent :=
  db.events.filter fun event =>
    afterSeq < event.seq ∧ event.seq ≤ upTo ∧ inStream py db.session threadId event

/-- The stream is complete, ordered and makes progress: every poll that finds
events moves the cursor; the yielded events are those of the thread between
the start and the cursor, in the order of the log; and an event is among them
as soon as there were as many polls since it was written as numbers up to its
own. -/
structure StreamsLog (py : Python) (threadId : Option String) (afterSeq : ℤ)
    (polls : List Db) : Prop where
  progresses : AllSteps (pollStep py threadId) (PollProgresses py threadId)
    { currentSeq := afterSeq } (polls.map .read)
  yields : ∃ stream,
    run (pollStep py threadId) { currentSeq := afterSeq } (polls.map .read) =
        some stream ∧
      (∀ last ∈ polls.getLast?, stream.events =
        eventsToStream py last threadId afterSeq stream.currentSeq) ∧
      ∀ front db back, polls = front ++ db :: back → ∀ event ∈ db.events,
        afterSeq < event.seq → inStream py db.session threadId event = true →
          event.seq ≤ afterSeq + (back.length + 1) → event ∈ stream.events

/-! ## Sequences of polls -/

section

variable {py : Python} {threadId : Option String} {sessionId : String}

theorem Polled.sublist
    {polls fewer : List Db} (hpolls : Polled sessionId polls)
    (hfewer : fewer.Sublist polls) : Polled sessionId fewer where
  session := fun db hdb => hpolls.session db (hfewer.subset hdb)
  notDeleted := fun db hdb => hpolls.notDeleted db (hfewer.subset hdb)
  gapFree := fun db hdb => hpolls.gapFree db (hfewer.subset hdb)
  grows := hpolls.grows.sublist hfewer

/-- The polls of one session agree on which events belong to the thread. -/
theorem Polled.inStream_eq
    {polls : List Db} (hpolls : Polled sessionId polls) {db other : Db}
    (hdb : db ∈ polls) (hother : other ∈ polls) :
    inStream py db.session threadId = inStream py other.session threadId := by
  funext event
  unfold inStream primaryThreadId
  rw [hpolls.session db hdb, hpolls.session other hother]

/-- After some polls the stream has caught up with the last log it read. -/
theorem run_polls
    {belongs : SessionEvent → Bool} {afterSeq : ℤ} {polls : List Db}
    {stream : EventStream} {log : List SessionEvent}
    (hconnected : stream.connected = true)
    (hcaught : Caught seqKey belongs log afterSeq stream.currentSeq stream.events)
    (hpolls : Polled sessionId polls)
    (hbelongs : ∀ db ∈ polls, inStream py db.session threadId = belongs)
    (hgrows : ∀ db ∈ polls, log <+: db.events) :
    ∃ final, run (pollStep py threadId) stream (polls.map .read) = some final ∧
      final.connected = true ∧
      Caught seqKey belongs ((polls.getLast?.map Db.events).getD log) afterSeq
        final.currentSeq final.events := by
  induction polls generalizing stream log with
  | nil => exact ⟨stream, rfl, hconnected, hcaught⟩
  | cons db rest ih =>
      have hlog := hpolls.gapFree db List.mem_cons_self
      obtain ⟨next, hstep, hnext, hcursor, hevents⟩ :=
        @pollStep_read py threadId stream db hconnected
          (hpolls.notDeleted db List.mem_cons_self) hlog
      rw [hbelongs db List.mem_cons_self] at hcursor hevents
      have hread := hcaught.grow (hgrows db List.mem_cons_self) (GapFree.ordered hlog)
      have hscanned : Caught seqKey belongs db.events afterSeq next.currentSeq
          next.events := by
        rw [hcursor, hevents]
        exact hread.scan (GapFree.ordered hlog) STREAM_PAGE_LIMIT
      obtain ⟨final, hrun, hfinal, hlast⟩ := ih hnext hscanned
        (hpolls.sublist (List.sublist_cons_self db rest))
        (fun other hother => hbelongs other (List.mem_cons_of_mem _ hother))
        (List.pairwise_cons.mp hpolls.grows).1
      refine ⟨final, ?_, hfinal, ?_⟩
      · exact run_cons_eq_some.mpr ⟨next, hstep, hrun⟩
      · rw [List.getLast?_cons]
        cases hempty : rest.getLast? with
        | none => simpa [hempty] using hlast
        | some last => simpa [hempty] using hlast

/-- A poll moves the cursor exactly when it finds an event of the thread. -/
theorem pollProgresses_iff
    {stream : EventStream} {db : Db} (hconnected : stream.connected = true)
    (hopen : db.session.deletedAt = none)
    (hlog : GapFree SessionEvent.seq db.events) :
    PollProgresses py threadId stream (.read db) ↔
      FindsOwnEvent py threadId stream (.read db) := by
  obtain ⟨next, hstep, -, hcursor, -⟩ :=
    @pollStep_read py threadId stream db hconnected hopen hlog
  have hordered : Ordered seqKey db.events := GapFree.ordered hlog
  have hmoves : stream.currentSeq < next.currentSeq ↔
      ∃ event ∈ listEventsFrom db.events stream.currentSeq STREAM_PAGE_LIMIT,
        inStream py db.session threadId event = true := by
    rw [hcursor, listEventsFrom_eq_page hlog]
    exact scan_cursor_lt_iff hordered.page page_after
  simp only [PollProgresses, FindsOwnEvent, ← hmoves, hstep, Option.some.injEq,
    forall_eq']

theorem pollsProgress_iff
    {stream : EventStream} {polls : List Db} (hconnected : stream.connected = true)
    (hpolls : Polled sessionId polls) :
    AllSteps (pollStep py threadId) (PollProgresses py threadId) stream
        (polls.map .read) ↔
      AllSteps (pollStep py threadId) (FindsOwnEvent py threadId) stream
        (polls.map .read) := by
  induction polls generalizing stream with
  | nil => exact Iff.rfl
  | cons db rest ih =>
      have hlog := hpolls.gapFree db List.mem_cons_self
      have hopen := hpolls.notDeleted db List.mem_cons_self
      obtain ⟨next, hstep, hnext, -, -⟩ :=
        @pollStep_read py threadId stream db hconnected hopen hlog
      have hhead := @pollProgresses_iff py threadId stream db hconnected hopen hlog
      have hrest := ih hnext (hpolls.sublist (List.sublist_cons_self db rest))
      simp only [List.map_cons, AllSteps, hstep, Option.some.injEq, forall_eq']
      rw [hhead, hrest]

/-- While an event of the log is ahead, every poll brings the cursor closer. -/
theorem cursor_reaches
    {stream final : EventStream} {polls : List Db} {event : SessionEvent}
    (hconnected : stream.connected = true) (hpolls : Polled sessionId polls)
    (hfinds : AllSteps (pollStep py threadId) (FindsOwnEvent py threadId) stream
      (polls.map .read))
    (hevent : ∀ db ∈ polls, event ∈ db.events)
    (hrun : run (pollStep py threadId) stream (polls.map .read) = some final) :
    stream.currentSeq ≤ final.currentSeq ∧
      (event.seq ≤ final.currentSeq ∨
        stream.currentSeq + polls.length ≤ final.currentSeq) := by
  induction polls generalizing stream with
  | nil =>
      obtain rfl : stream = final := by simpa using hrun
      simp
  | cons db rest ih =>
      have hlog := hpolls.gapFree db List.mem_cons_self
      have hopen := hpolls.notDeleted db List.mem_cons_self
      obtain ⟨next, hstep, hnext, hcursor, -⟩ :=
        @pollStep_read py threadId stream db hconnected hopen hlog
      obtain ⟨other, hother, hrest⟩ := run_cons_eq_some.mp hrun
      obtain rfl : next = other := Option.some.inj (hstep.symm.trans hother)
      have hreach := ih hnext (hpolls.sublist (List.sublist_cons_self db rest))
        (hfinds.2 next hstep)
        (fun other hother => hevent other (List.mem_cons_of_mem _ hother)) hrest
      have hmoves : stream.currentSeq ≤ next.currentSeq := by
        rw [hcursor]
        exact le_scan_cursor page_after
      have hprogress : stream.currentSeq < event.seq →
          stream.currentSeq < next.currentSeq := by
        intro hahead
        have hpage :
            listEventsFrom db.events stream.currentSeq STREAM_PAGE_LIMIT ≠ [] := by
          rw [listEventsFrom_eq_page hlog]
          exact page_ne_nil (hevent db List.mem_cons_self) hahead (by decide)
        exact (pollProgresses_iff hconnected hopen hlog).mpr hfinds.1 hpage next hstep
      simp only [List.length_cons, Nat.cast_add, Nat.cast_one]
      omega

end

/-! ## Completeness and progress -/

/-- On every growing log the stream is complete, ordered and makes progress
exactly when no poll reads a page that is not empty and holds no event of the
thread. -/
theorem event_stream_complete_iff
    {py : Python} {threadId : Option String} {afterSeq : ℤ} {sessionId : String}
    {polls : List Db} (hpolls : Polled sessionId polls) :
    StreamsLog py threadId afterSeq polls ↔
      AllSteps (pollStep py threadId) (FindsOwnEvent py threadId)
        { currentSeq := afterSeq } (polls.map .read) := by
  have hstart : ({ currentSeq := afterSeq } : EventStream).connected = true := rfl
  constructor
  · intro hstreams
    exact (pollsProgress_iff hstart hpolls).mp hstreams.progresses
  intro hfinds
  refine ⟨(pollsProgress_iff hstart hpolls).mpr hfinds, ?_⟩
  cases polls with
  | nil =>
      refine ⟨_, rfl, by simp, ?_⟩
      intro front db back hsplit
      simp at hsplit
  | cons first rest =>
  have hbelongs : ∀ db ∈ first :: rest,
      inStream py db.session threadId = inStream py first.session threadId :=
    fun db hdb => hpolls.inStream_eq hdb List.mem_cons_self
  obtain ⟨final, hrun, -, hcaught⟩ :=
    run_polls hstart (Caught.start [] afterSeq) hpolls hbelongs
      (fun _ _ => List.nil_prefix)
  have hlast : ∀ last ∈ (first :: rest).getLast?, final.events =
      eventsToStream py last threadId afterSeq final.currentSeq := by
    intro last hlast
    rw [Option.mem_def] at hlast
    have hsent := hcaught.sent_eq
    rw [hlast, ← hbelongs last (List.mem_of_getLast? hlast)] at hsent
    exact hsent
  refine ⟨final, hrun, hlast, ?_⟩
  intro front db back hsplit event hevent hafter hthread hpolled
  rw [hsplit] at hpolls hbelongs hfinds hrun hcaught hlast
  rw [List.map_append] at hfinds hrun
  -- the polls up to the one that reads the event
  obtain ⟨middle, hfront, hback⟩ := run_append_eq_some.mp hrun
  obtain ⟨reached, hreached, hmiddle, hmiddleCaught⟩ :=
    run_polls hstart (Caught.start [] afterSeq)
      (hpolls.sublist (List.sublist_append_left front _))
      (fun other hother => hbelongs other (List.mem_append_left _ hother))
      (fun _ _ => List.nil_prefix)
  obtain rfl : reached = middle := Option.some.inj (hreached.symm.trans hfront)
  -- the polls from there on
  have hbackPolls := hpolls.sublist (List.sublist_append_right front _)
  have hinLater : ∀ other ∈ db :: back, event ∈ other.events := by
    intro other hother
    rcases List.mem_cons.mp hother with rfl | hother
    · exact hevent
    · exact ((List.pairwise_cons.mp hbackPolls.grows).1 other hother).subset hevent
  have hcursor := (cursor_reaches hmiddle hbackPolls (hfinds.of_append hfront)
    hinLater hback).2
  have hlow := hmiddleCaught.low_le
  have hseq : event.seq ≤ final.currentSeq := by
    simp only [List.length_cons, Nat.cast_add, Nat.cast_one] at hcursor
    omega
  have hnonempty : db :: back ≠ [] := List.cons_ne_nil db back
  have hlastMem := List.getLast_mem hnonempty
  have hgetLast : (front ++ db :: back).getLast? =
      some ((db :: back).getLast hnonempty) := by
    rw [List.getLast?_append_of_ne_nil _ hnonempty, List.getLast?_eq_some_getLast]
  rw [hlast _ hgetLast]
  unfold eventsToStream
  apply List.mem_filter.mpr
  constructor
  · exact hinLater _ hlastMem
  · have hsame := @Polled.inStream_eq py threadId _ _ hpolls _ db
      (List.mem_append_right front hlastMem)
      (List.mem_append_right front List.mem_cons_self)
    rw [decide_eq_true_eq, hsame]
    exact ⟨hafter, hseq, hthread⟩

/-- A stream of all events meets the condition on every log. -/
theorem findsOwnEvent_all
    (py : Python) (stream : EventStream) (poll : StreamPoll) :
    FindsOwnEvent py none stream poll := by
  cases poll with
  | disconnected => trivial
  | read db =>
      intro hpage
      obtain ⟨event, hevent⟩ := List.exists_mem_of_ne_nil _ hpage
      exact ⟨event, hevent, rfl⟩

/-! ## Streams of sample sessions -/

theorem samplePolls_polled :
    ∃ sessionId, Polled sessionId [sampleDb, sampleSent, sampleStarted] :=
  @committed_polls _ _ _ [3, 2, 1]
    (sampleHistory_interleaved sequencedCommit_of_sampleCommit) (by decide) rfl
      (by decide)

theorem sample_thread_stream_complete :
    StreamsLog samplePython (some "thrd_sess_1_primary") 0
      [sampleDb, sampleSent, sampleStarted] := by
  obtain ⟨sessionId, hpolled⟩ := samplePolls_polled
  exact (event_stream_complete_iff hpolled).mpr (by decide)

/-- A message in another thread than the one that is streamed. -/
def sampleThreadMessage : SessionEventInput where
  type := "user.message"
  fields := [("thread_id", .str "thrd_other")]

def sampleForeign : Db :=
  (sampleCommit
    (.request (.sendEvents (some sampleEnvironment) [sampleThreadMessage]))
    sampleDb sampleDb "b").get (by decide)

/-- A page of another thread's events leaves the cursor where it was. -/
theorem foreign_page_read_again :
    ¬ StreamsLog samplePython (some "thrd_sess_1_primary") 1 [sampleForeign] := by
  have hpolled : Polled "sess_1" [sampleForeign] :=
    ⟨by decide, by decide, by decide, by decide⟩
  intro hstreams
  have hfinds := (pollsProgress_iff rfl hpolled).mp hstreams.progresses
  revert hfinds
  decide

end ManagedAgents
