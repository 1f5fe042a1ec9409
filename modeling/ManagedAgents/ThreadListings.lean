import ManagedAgents.DelegatedThreads
import ManagedAgents.Library.Partitions
import ManagedAgents.ListWalks

/-!
# Listings of threads

The routes that list the threads of a session and the events of a thread.  The
threads share the events of the session out among them: no event is listed for
two threads, and none is lost that names no thread or one of them.
-/

namespace ManagedAgents

open Fallible LabelledRuns NewestPage Partitions

/-! ## Routes -/

def SessionThread.age (thread : SessionThread) : Time ×ₗ String :=
  toLex (thread.createdAt, thread.id)

/-- The columns which only responses show, and the version of the session. -/
structure ThreadColumns where
  sessionCreatedAt : Time
  sessionUpdatedAt : Time
  updatedAt : SessionThread → Time
  version : Option AgentVersion

def SESSION_THREAD_STATUSES : List Json :=
  [.str "running", .str "idle", .str "rescheduling", .str "terminated"]

def sessionThreadStatus (data : Dict) (session : ManagedSession) : Json :=
  let status := (Dict.get data "status").or (.str session.status.name)
  if status ∈ SESSION_THREAD_STATUSES then status else .str "idle"

/-- `_session_thread_response`; the primary thread has no row. -/
def sessionThreadResponse (py : Python) (columns : ThreadColumns)
    (session : ManagedSession) (thread : Option SessionThread) : Dict :=
  let data := (thread.map SessionThread.data).getD []
  let archivedAt :=
    match thread with
    | some row => row.archivedAt
    | none => session.statusDetails.primaryThreadArchivedAt
  [("id", .str ((thread.map SessionThread.id).getD (primaryThreadId session))),
   ("type", .str "session_thread"),
   ("session_id", .str session.id),
   ("agent", (Dict.get data "agent").or
     (optionalJson columns.version sessionThreadAgentSnapshot)),
   ("status", sessionThreadStatus data session),
   ("parent_thread_id", Dict.get data "parent_thread_id"),
   ("stats", (Dict.get data "stats").or (.dict [])),
   ("usage", (Dict.get data "usage").or (.dict [])),
   ("archived_at", optionalJson archivedAt fun time => .str (py.isoformat time)),
   ("created_at", .str (py.isoformat
     ((thread.map SessionThread.createdAt).getD columns.sessionCreatedAt))),
   ("updated_at", .str (py.isoformat
     ((thread.map columns.updatedAt).getD columns.sessionUpdatedAt)))]

def listSessionThreads (py : Python) (columns : ThreadColumns) (db : Db)
    (rows : List SessionThread) (limit : ℤ) (page : Option String) (now : Time) :
    Except HTTPException (ListResponse Dict) := do
  raiseIf (db.session.deletedAt ≠ none) sessionNotFound
  let threads := NewestPage.page SessionThread.age rows 1000
  let responses := threads.map fun thread =>
    sessionThreadResponse py columns db.session (some thread)
  paginate py now (sessionThreadResponse py columns db.session none :: responses)
    (some limit) page

def sessionThreadNotFound : HTTPException := ⟨404, "Session thread not found"⟩

def mustGetSessionThread (session : ManagedSession) (rows : List SessionThread)
    (threadId : String) : Except HTTPException (Option SessionThread) :=
  if threadId = primaryThreadId session then .ok none
  else
    match rows.find? fun thread => thread.id = threadId with
    | some thread => .ok (some thread)
    | none => .error sessionThreadNotFound

def listSessionThreadEvents (py : Python) (timestamp : String → String) (db : Db)
    (rows : List SessionThread) (threadId : String) (afterSeq limit : ℤ)
    (page : Option String) (now : Time) : Except HTTPException (ListResponse Dict) := do
  raiseIf (db.session.deletedAt ≠ none) sessionNotFound
  let _ ← mustGetSessionThread db.session rows threadId
  let events := listEventsFrom db.events afterSeq 1000
  let filtered := events.filter fun event =>
    eventBelongsToThread py event threadId (primaryThreadId db.session)
  paginate py now (filtered.map (eventToResponse py timestamp db.session.id)) (some limit)
    page

/-! ## Addresses -/

/-- The identifiers under which the routes find the threads of a session. -/
def threadAddresses (session : ManagedSession)
    (rows : List SessionThread) : List String :=
  primaryThreadId session :: rows.map SessionThread.id

theorem mustGetSessionThread_eq_error
    {session : ManagedSession} {rows : List SessionThread} {threadId : String} :
    mustGetSessionThread session rows threadId = .error sessionThreadNotFound ↔
      threadId ∉ threadAddresses session rows := by
  unfold mustGetSessionThread threadAddresses
  by_cases hprimary : threadId = primaryThreadId session
  · simp [hprimary]
  · rw [if_neg hprimary]
    cases hfound : rows.find? fun thread => thread.id = threadId with
    | some thread =>
        have hid := List.find?_some hfound
        have hmem := List.mem_of_find?_eq_some hfound
        simp only [decide_eq_true_eq] at hid
        have hlisted : threadId ∈ rows.map SessionThread.id :=
          List.mem_map.mpr ⟨thread, hmem, hid⟩
        simp [hlisted]
    | none =>
        rw [List.find?_eq_none] at hfound
        have hlisted : threadId ∉ rows.map SessionThread.id := by
          intro hmem
          obtain ⟨thread, hthread, hid⟩ := List.mem_map.mp hmem
          exact hfound thread hthread (by simpa using hid)
        simp only [List.mem_cons, not_or, true_iff]
        exact ⟨hprimary, hlisted⟩

theorem mustGetSessionThread_ok
    {session : ManagedSession} {rows : List SessionThread} {threadId : String}
    (hmem : threadId ∈ threadAddresses session rows) :
    ∃ thread, mustGetSessionThread session rows threadId = .ok thread := by
  cases hget : mustGetSessionThread session rows threadId with
  | ok thread => exact ⟨thread, rfl⟩
  | error error =>
      have herror : error = sessionThreadNotFound := by
        unfold mustGetSessionThread at hget
        split at hget
        · cases hget
        · split at hget
          · cases hget
          · cases hget
            rfl
      rw [herror] at hget
      exact absurd hmem (mustGetSessionThread_eq_error.mp hget)

/-- Identifiers of threads that are neither empty nor the primary one keep the
events apart. -/
theorem eventBelongsToThread_exclusive
    (py : Python) {primary : String} {ids : List String} (hids : ids.Nodup)
    (hother : ∀ id ∈ ids, id ≠ "" ∧ id ≠ primary) :
    Exclusive (fun threadId event => eventBelongsToThread py event threadId primary)
      (primary :: ids) := by
  have hnamed : ∀ id ∈ ids, ∀ event, eventBelongsToThread py event id primary = true ↔
      eventThreadId py event = some id := by
    intro id hid event
    rw [eventBelongsToThread, if_neg (hother id hid).2]
    exact decide_eq_true_iff
  refine List.pairwise_cons.mpr ⟨?_, ?_⟩
  · intro id hid event hprimary
    simp only [eventBelongsToThread, if_true, decide_eq_true_eq] at hprimary
    rw [← Bool.not_eq_true, hnamed id hid event]
    intro hsame
    rw [hsame] at hprimary
    obtain ⟨hempty, hne⟩ := hother id hid
    simp [hempty, hne] at hprimary
  · refine hids.imp_of_mem ?_
    intro left right hleft hright hne event hevent
    rw [← Bool.not_eq_true, hnamed right hright event,
      (hnamed left hleft event).mp hevent]
    exact fun hsame => hne (Option.some.inj hsame)

/-! ## Walks -/

theorem listSessionThreads_walk
    {py : Python} {columns : ThreadColumns} {db : Db} {rows : List SessionThread}
    {limit : ℤ} {clock : ℕ → Time} (hdeleted : db.session.deletedAt = none)
    (hclock : ∀ request, InTime clock request) :
    WalkReturns
      (fun now page => listSessionThreads py columns db rows limit page now) clock
      (sessionThreadResponse py columns db.session none ::
        (NewestPage.page SessionThread.age rows 1000).map fun thread =>
          sessionThreadResponse py columns db.session (some thread)) := by
  have hendpoint :
      (fun now page => listSessionThreads py columns db rows limit page now) =
      fun now page => paginate py now
        (sessionThreadResponse py columns db.session none ::
          (NewestPage.page SessionThread.age rows 1000).map fun thread =>
            sessionThreadResponse py columns db.session (some thread))
        (some limit) page := by
    funext now page
    simp [listSessionThreads, hdeleted, raiseIf, bind, Except.bind]
  rw [hendpoint, walkReturns_paginate_iff]
  exact ⟨rfl, fun request _ => hclock request⟩

theorem listSessionThreadEvents_walk
    {py : Python} {timestamp : String → String} {db : Db} {rows : List SessionThread}
    {threadId : String} {afterSeq limit : ℤ} {clock : ℕ → Time}
    (hdeleted : db.session.deletedAt = none)
    (hthread : threadId ∈ threadAddresses db.session rows)
    (hclock : ∀ request, InTime clock request) :
    WalkReturns
      (fun now page => listSessionThreadEvents py timestamp db rows threadId afterSeq
        limit page now)
      clock
      (((listEventsFrom db.events afterSeq 1000).filter fun event =>
        eventBelongsToThread py event threadId (primaryThreadId db.session)).map
          (eventToResponse py timestamp db.session.id)) := by
  obtain ⟨thread, hget⟩ := mustGetSessionThread_ok hthread
  have hendpoint : (fun now page => listSessionThreadEvents py timestamp db rows threadId
      afterSeq limit page now) =
      fun now page => paginate py now
        (((listEventsFrom db.events afterSeq 1000).filter fun event =>
          eventBelongsToThread py event threadId (primaryThreadId db.session)).map
            (eventToResponse py timestamp db.session.id))
        (some limit) page := by
    funext now page
    simp [listSessionThreadEvents, hdeleted, hget, raiseIf, bind, Except.bind]
  rw [hendpoint, walkReturns_paginate_iff]
  exact ⟨rfl, fun request _ => hclock request⟩

theorem listSessionThreadEvents_not_found
    {py : Python} {timestamp : String → String} {db : Db} {rows : List SessionThread}
    {threadId : String} {afterSeq limit : ℤ} {page : Option String} {now : Time}
    (hdeleted : db.session.deletedAt = none)
    (hthread : threadId ∉ threadAddresses db.session rows) :
    listSessionThreadEvents py timestamp db rows threadId afterSeq limit page now =
      .error sessionThreadNotFound := by
  have hget := mustGetSessionThread_eq_error.mpr hthread
  simp [listSessionThreadEvents, hdeleted, hget, raiseIf, bind, Except.bind]

/-! ## The threads of a run -/

theorem Staffed.few
    {py : Python} {rows : AgentRows} {session : ManagedSession} {team : Team}
    (hstaffed : Staffed py rows session team) :
    team.threads.length ≤ MAX_ROSTER_AGENTS := by
  obtain ⟨coordinator, -, -, -, -, hthreads⟩ := hstaffed
  split at hthreads
  · simp [hthreads]
  · exact hthreads.few

theorem Staffed.addressed
    {py : Python} {rows : AgentRows} {session : ManagedSession} {team : Team}
    (hstaffed : Staffed py rows session team) :
    ∀ thread ∈ team.threads, thread.id ≠ "" ∧ thread.id ≠ primaryThreadId session := by
  obtain ⟨coordinator, -, -, -, -, hthreads⟩ := hstaffed
  split at hthreads
  · simp [hthreads]
  · exact hthreads.addressed

/-- The event names no thread, or one which the routes find. -/
def threadKnown (py : Python) (session : ManagedSession) (rows : List SessionThread)
    (event : SessionEvent) : Bool :=
  match eventThreadId py event with
  | none => true
  | some threadId => threadId = "" || threadId ∈ threadAddresses session rows

theorem eventBelongsToThread_iff
    {py : Python} {session : ManagedSession} {rows : List SessionThread}
    (hother : ∀ thread ∈ rows, thread.id ≠ "" ∧ thread.id ≠ primaryThreadId session)
    {threadId : String} (hmem : threadId ∈ threadAddresses session rows)
    (event : SessionEvent) :
    eventBelongsToThread py event threadId (primaryThreadId session) = true ↔
      eventThreadId py event = some threadId ∨
        (threadId = primaryThreadId session ∧
          (eventThreadId py event = none ∨ eventThreadId py event = some "")) := by
  rcases List.mem_cons.mp hmem with rfl | hmem
  · simp only [eventBelongsToThread, if_true, decide_eq_true_eq, List.mem_cons,
      List.not_mem_nil, or_false, true_and]
    tauto
  · obtain ⟨thread, hthread, rfl⟩ := List.mem_map.mp hmem
    simp [eventBelongsToThread, (hother thread hthread).2]

theorem owned_eq_threadKnown
    (py : Python) (session : ManagedSession) (rows : List SessionThread)
    (hother : ∀ thread ∈ rows, thread.id ≠ "" ∧ thread.id ≠ primaryThreadId session) :
    owned (fun threadId event =>
        eventBelongsToThread py event threadId (primaryThreadId session))
      (threadAddresses session rows) = threadKnown py session rows := by
  funext event
  have hprimary : primaryThreadId session ∈ threadAddresses session rows :=
    List.mem_cons_self
  rw [Bool.eq_iff_iff, owned, List.any_eq_true, threadKnown]
  constructor
  · rintro ⟨threadId, hmem, hbelongs⟩
    rcases (eventBelongsToThread_iff hother hmem event).mp hbelongs
      with hsame | ⟨-, hnone | hempty⟩
    · simp [hsame, hmem]
    · simp [hnone]
    · simp [hempty]
  · intro hknown
    cases hevent : eventThreadId py event with
    | none =>
        exact ⟨_, hprimary, (eventBelongsToThread_iff hother hprimary event).mpr
          (Or.inr ⟨rfl, Or.inl hevent⟩)⟩
    | some threadId =>
        simp only [hevent, Bool.or_eq_true, decide_eq_true_eq] at hknown
        rcases hknown with rfl | hmem
        · exact ⟨_, hprimary, (eventBelongsToThread_iff hother hprimary event).mpr
            (Or.inr ⟨rfl, Or.inr hevent⟩)⟩
        · exact ⟨threadId, hmem, (eventBelongsToThread_iff hother hmem event).mpr
            (Or.inl hevent)⟩

/-- In whatever state a run leaves a session, a client that walks its threads and
then the events of each thread gets every event once that names no thread or one
of these, and nothing for any other thread. -/
theorem thread_walks_cover
    {py : Python} {labels : List ThreadedLabel} {last : ThreadedInstallation}
    (hrun : run (threadedStep py) ThreadedInstallation.start labels = some last)
    {index : ℕ} {world : World} {team : Team}
    (hworld : last.installation.sessions[index]? = some world)
    (hteam : last.teams[index]? = some team) {clock : ℕ → Time}
    (hclock : ∀ request, InTime clock request)
    (hdeleted : world.db.session.deletedAt = none) (timestamp : String → String)
    (columns : ThreadColumns) (afterSeq limit : ℤ) :
    ∃ (threads : List Dict) (events : String → List Dict),
      WalkReturns
          (fun now page => listSessionThreads py columns world.db team.threads limit page
            now)
          clock threads ∧
        (threads.map fun thread => Dict.get thread "id").Perm
          ((threadAddresses world.db.session team.threads).map Json.str) ∧
        (∀ threadId ∈ threadAddresses world.db.session team.threads,
          WalkReturns
            (fun now page => listSessionThreadEvents py timestamp world.db team.threads
              threadId afterSeq limit page now)
            clock (events threadId)) ∧
        ((threadAddresses world.db.session team.threads).flatMap events).Perm
          (((listEventsFrom world.db.events afterSeq 1000).filter
            (threadKnown py world.db.session team.threads)).map
              (eventToResponse py timestamp world.db.session.id)) ∧
        ∀ threadId ∉ threadAddresses world.db.session team.threads, ∀ page now,
          listSessionThreadEvents py timestamp world.db team.threads threadId afterSeq
            limit page now = .error sessionThreadNotFound := by
  obtain ⟨-, hsound⟩ := threaded_run_sound (ThreadedInstallation.start_sound py) hrun
  have hstaffed := hsound.staffed_get hworld hteam
  have hother := hstaffed.addressed
  have hids : (team.threads.map SessionThread.id).Nodup := by
    have hall := hsound.ids
    rw [threadIds_eq_flatten, List.nodup_flatten] at hall
    exact hall.1 _ (List.mem_map.mpr ⟨team, List.mem_of_getElem? hteam, rfl⟩)
  have hlisted :
      (NewestPage.page SessionThread.age team.threads 1000).Perm team.threads :=
    page_perm_of_length_le (hstaffed.few.trans (by decide))
  refine ⟨_, _, listSessionThreads_walk hdeleted hclock, ?_,
    fun threadId hthread => listSessionThreadEvents_walk hdeleted hthread hclock, ?_,
    fun threadId hthread page now => listSessionThreadEvents_not_found hdeleted hthread⟩
  · rw [List.map_cons, List.map_map, threadAddresses, List.map_cons, List.map_map]
    exact (hlisted.map _).cons _
  · rw [← List.map_flatMap]
    have hexclusive := eventBelongsToThread_exclusive py hids (by
      intro id hid
      obtain ⟨thread, hthread, rfl⟩ := List.mem_map.mp hid
      exact hother thread hthread)
    rw [← owned_eq_threadKnown py world.db.session team.threads hother]
    exact (flatMap_filter_perm _ hexclusive).map _

/-- A session of a lead with a clerk, and a message for the thread of each. -/
def sampleConversation : ThreadedInstallation :=
  (run (threadedStep samplePython) ThreadedInstallation.start
    [.agents (sampleAgentCall "a" (.create { name := "clerk", model := .str "sonnet" })),
     .agents (sampleAgentCall "b" (.create
      { name := "lead", model := .str "sonnet"
        multiagent := some
          [("type", .str "coordinator"), ("agents", .list [.str "agt_a0"])] })),
     .create
      { workspaceId := "wrkspc_default", agentId := "agt_b0", version := none
        seed := sampleSeed, context := sampleContext "c", initialEvents := none } [0, 0]
      { uuidHex := fun draw => "d" ++ toString draw, clock := fun _ => 0 },
     .session 0 (.request 0 (.sendEvents (some sampleEnvironment)
      [sampleMessage,
       { type := "user.message", fields := [("thread_id", .str "thread_d0")] }]) 0
      (sampleContext "e")) "wrkspc_default" 0]).get (by decide)

def sampleTeamWorld : World :=
  (sampleConversation.installation.sessions[0]?).get (by decide)

def sampleTeam : Team :=
  (sampleConversation.teams[0]?).get (by decide)

/-- The event of the creation and the first message are listed for the primary thread,
the second message for the thread of the clerk. -/
theorem sample_thread_walks_cover :
    ∃ events : String → List Dict,
      (∀ threadId ∈ threadAddresses sampleTeamWorld.db.session sampleTeam.threads,
        WalkReturns
          (fun now page => listSessionThreadEvents samplePython id sampleTeamWorld.db
            sampleTeam.threads threadId 0 20 page now)
          (fun _ => 0) (events threadId)) ∧
      ((threadAddresses sampleTeamWorld.db.session sampleTeam.threads).flatMap
        events).length = 3 := by
  have hclock : ∀ request, InTime (fun _ => 0) request :=
    fun _ => lt_add_of_pos_right _ (by decide)
  obtain ⟨-, events, -, -, hwalks, hperm, -⟩ :=
    @thread_walks_cover samplePython _ sampleConversation (Option.some_get _).symm 0
      sampleTeamWorld sampleTeam (Option.some_get _).symm (Option.some_get _).symm _
      hclock (by decide) id ⟨0, 0, fun _ => 0, none⟩ 0 20
  exact ⟨events, hwalks, hperm.length_eq.trans (by decide)⟩

end ManagedAgents
