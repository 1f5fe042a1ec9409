import ManagedAgents.SessionThreads

/-!
# Delegated threads

No roster makes the creation of a session fail: the versions which it names are
in every later state.  The sessions with threads therefore go through the states
of the sessions without them, and each keeps one thread for each entry.
-/

namespace ManagedAgents

open Fallible LabelledRuns ReadCommitted

/-! ## Entries of a stored roster -/

/-- The elements of a list; any other value has none. -/
def listItems : Json → List Json
  | .list items => items
  | _ => []

theorem listItems_or (value : Json) :
    listItems (value.or (.list [])) = listItems value := by
  unfold Json.or
  cases htruthy : value.truthy with
  | true => rw [if_pos rfl]
  | false =>
      rw [if_neg (by simp)]
      cases value with
      | list items =>
          obtain rfl : items = [] := by simpa [Json.truthy] using htruthy
          rfl
      | _ => rfl

theorem get_or_dict (value : Json) (key : String) :
    (value.or (.dict [])).get key = value.get key := by
  unfold Json.or
  cases htruthy : value.truthy with
  | true => rw [if_pos rfl]
  | false =>
      rw [if_neg (by simp)]
      cases value with
      | dict fields =>
          obtain rfl : fields = [] := by simpa [Json.truthy] using htruthy
          rfl
      | _ => rfl

theorem threadRoster_eq (multiagent : Json) :
    threadRoster multiagent = rosterMembers multiagent := by
  have hitems : threadRoster multiagent =
      listItems (((multiagent.or (.dict [])).get "agents").or (.list [])) := by
    unfold threadRoster
    cases multiagent.or (.dict []) <;> rfl
  rw [hitems, listItems_or, get_or_dict]
  rfl

theorem getAgentVersion_of_mem
    {rows : AgentRows} {version : AgentVersionRow} (hhistory : AgentHistory rows)
    (hversion : version ∈ rows.versions) :
    getAgentVersion rows version.agentId version.version version.workspaceId =
      some version := by
  cases hfound : getAgentVersion rows version.agentId version.version
      version.workspaceId with
  | none =>
      have hnone := List.find?_eq_none.mp hfound version hversion
      simp at hnone
  | some found =>
      obtain ⟨hmem, hagent, hnumber, -⟩ := getAgentVersion_eq_some hfound
      rw [hhistory.version_unique hmem hversion hagent (by exact_mod_cast hnumber)]

theorem RefersTo.getsThread
    {entry : Json} {referenced : AgentVersionRow} (hrefers : RefersTo entry referenced)
    (hid : referenced.agentId ≠ "") : getsThread entry = true := by
  simp [ManagedAgents.getsThread, hrefers.1, hrefers.2.1, hrefers.2.2, Json.truthy, hid]

/-! ## What a thread is -/

/-- The thread stands for a version to which the coordinator may delegate. -/
def Delegate (py : Python) (rows : AgentRows) (session : ManagedSession)
    (coordinator : AgentVersionRow) (entry : Json) (thread : SessionThread) : Prop :=
  ∃ referenced ∈ rows.versions, RefersTo entry referenced ∧
    referenced.workspaceId = coordinator.workspaceId ∧
    (referenced.multiagent = .null ∨ referenced.agentId = coordinator.agentId) ∧
    thread.asCreated = delegatedThread py thread.id thread.createdAt
      coordinator.workspaceId session entry referenced.toAgentVersion

@[simp] theorem SessionThread.asCreated_id (thread : SessionThread) :
    thread.asCreated.id = thread.id := rfl

@[simp] theorem SessionThread.asCreated_createdAt (thread : SessionThread) :
    thread.asCreated.createdAt = thread.createdAt := rfl

@[simp] theorem SessionThread.asCreated_data (thread : SessionThread) :
    thread.asCreated.data = thread.data := rfl

@[simp] theorem SessionThread.archive_asCreated (thread : SessionThread) (now : Time) :
    (thread.archive now).asCreated = thread.asCreated := rfl

/-- The agent of a thread. -/
def SessionThread.agentId (thread : SessionThread) : Json :=
  (Dict.get thread.data "agent").get "id"

/-- One thread for each entry, for different agents. -/
structure ThreadsOf (py : Python) (rows : AgentRows) (session : ManagedSession)
    (coordinator : AgentVersionRow) (threads : List SessionThread) : Prop where
  delegates : List.Forall₂ (Delegate py rows session coordinator)
    (rosterMembers coordinator.multiagent) threads
  distinct : (threads.map SessionThread.agentId).Nodup
  few : threads.length ≤ MAX_ROSTER_AGENTS
  addressed : ∀ thread ∈ threads, thread.id ≠ "" ∧ thread.id ≠ primaryThreadId session

/-- The threads of a session are those of its coordinator, or none if a
deployment made it. -/
def Staffed (py : Python) (rows : AgentRows) (session : ManagedSession) (team : Team) :
    Prop :=
  ∃ coordinator ∈ rows.versions, session.agentId = coordinator.agentId ∧
    session.agentVersion = coordinator.version ∧
    coordinator.workspaceId = team.creation.workspaceId ∧
    match team.creation.initialEvents with
    | some _ => team.threads = []
    | none => ThreadsOf py rows session coordinator team.threads

theorem Delegate.agentId
    {py : Python} {rows : AgentRows} {session : ManagedSession}
    {coordinator : AgentVersionRow} {entry : Json} {thread : SessionThread}
    (hdelegate : Delegate py rows session coordinator entry thread) :
    thread.agentId = entry.get "id" := by
  obtain ⟨referenced, -, hrefers, -, -, hthread⟩ := hdelegate
  have hdata := congrArg SessionThread.data hthread
  rw [SessionThread.asCreated_data] at hdata
  rw [hrefers.2.1, SessionThread.agentId, hdata]
  simp [delegatedThread, sessionThreadAgentSnapshot, Dict.get, Json.get]

theorem Delegate.mono
    {py : Python} {rows next : AgentRows} {session : ManagedSession}
    {coordinator : AgentVersionRow} {entry : Json} {thread : SessionThread}
    (hdelegate : Delegate py rows session coordinator entry thread)
    (hversions : ∀ version ∈ rows.versions, version ∈ next.versions) :
    Delegate py next session coordinator entry thread := by
  obtain ⟨referenced, hmem, hthread⟩ := hdelegate
  exact ⟨referenced, hversions referenced hmem, hthread⟩

/-- The columns of a session which no transaction writes. -/
structure SameSession (session later : ManagedSession) : Prop where
  id : later.id = session.id
  agentId : later.agentId = session.agentId
  agentVersion : later.agentVersion = session.agentVersion

theorem delegatedThread_same
    (py : Python) (id : String) (createdAt : Time) (workspaceId : String)
    {session later : ManagedSession} (entry : Json) (referenced : AgentVersion)
    (hsame : SameSession session later) :
    delegatedThread py id createdAt workspaceId later entry referenced =
      delegatedThread py id createdAt workspaceId session entry referenced := by
  simp [delegatedThread, primaryThreadId, hsame.id, hsame.agentId, hsame.agentVersion]

theorem Delegate.later
    {py : Python} {rows : AgentRows} {session later : ManagedSession}
    {coordinator : AgentVersionRow} {entry : Json} {thread row : SessionThread}
    (hdelegate : Delegate py rows session coordinator entry thread)
    (hsame : SameSession session later) (hrow : row.asCreated = thread.asCreated) :
    Delegate py rows later coordinator entry row := by
  obtain ⟨referenced, hmem, hrefers, hworkspace, hplain, hthread⟩ := hdelegate
  have hid := congrArg SessionThread.id hrow
  have hcreatedAt := congrArg SessionThread.createdAt hrow
  rw [SessionThread.asCreated_id, SessionThread.asCreated_id] at hid
  rw [SessionThread.asCreated_createdAt, SessionThread.asCreated_createdAt] at hcreatedAt
  refine ⟨referenced, hmem, hrefers, hworkspace, hplain, ?_⟩
  rw [delegatedThread_same py row.id _ _ entry _ hsame, hrow, hid, hcreatedAt]
  exact hthread

/-! ## Creation -/

/-- Entries whose versions are found give one thread each. -/
theorem delegateThreads_eq_ok
    {py : Python} {supply : Supply} {workspaceId : String} {session : ManagedSession}
    {view : AgentView} {made : ℕ} {roster : List Json}
    {chosen : Json → AgentVersionRow → Prop}
    (hroster : ∀ entry ∈ roster, ∃ referenced : AgentVersionRow,
      chosen entry referenced ∧ RefersTo entry referenced ∧ referenced.agentId ≠ "" ∧
        ∀ query, getAgentVersion (view (2 + query)) referenced.agentId referenced.version
          workspaceId = some referenced) :
    ∃ threads, delegateThreads py supply workspaceId session view made roster =
        .ok threads ∧
      List.Forall₂ (fun entry thread => ∃ draw, ∃ referenced : AgentVersionRow,
        chosen entry referenced ∧ thread = delegatedThread py
          ("thread_" ++ supply.uuidHex draw) (supply.clock draw) workspaceId session entry
          referenced.toAgentVersion) roster threads := by
  induction roster generalizing made with
  | nil => exact ⟨[], rfl, List.Forall₂.nil⟩
  | cons entry rest ih =>
      obtain ⟨hentry, hrest⟩ := List.forall_mem_cons.mp hroster
      obtain ⟨referenced, hchosen, hrefers, hid, hfound⟩ := hentry
      obtain ⟨threads, hthreads, hdelegates⟩ := @ih (made + 1) hrest
      have hnumber : threadVersion py entry = .ok referenced.version := by
        simp [threadVersion, hrefers.2.2, Python.int]
      have hversion : getAgentVersion (view (2 + made)) (py.str (entry.get "id"))
          referenced.version workspaceId = some referenced := by
        rw [hrefers.2.1]
        exact hfound made
      refine ⟨_, ?_, List.Forall₂.cons ⟨made, referenced, hchosen, rfl⟩ hdelegates⟩
      rw [delegateThreads, if_pos (hrefers.getsThread hid), hnumber]
      simp only [bind, Except.bind, hversion, hthreads]
      rfl

theorem exists_of_forall₂
    {First Second : Type} {related : First → Second → Prop} {firsts : List First}
    {seconds : List Second} (hall : List.Forall₂ related firsts seconds) {second : Second}
    (hsecond : second ∈ seconds) : ∃ first, related first second := by
  induction hall with
  | nil => cases hsecond
  | cons hhead htail ih =>
      rcases List.mem_cons.mp hsecond with rfl | hsecond
      · exact ⟨_, hhead⟩
      · exact ih hsecond

section

variable {py : Python} {agents : AgentWorld} {ages : List ℕ}

/-- Versions which a session has seen are found by its later queries. -/
theorem view_getAgentVersion
    (hordered : agents.Ordered AgentHistory EarlierAgents)
    (hages : Admissible agents ages) {version : AgentVersionRow}
    (hversion : version ∈ (agents.view ages 1).versions) (query : ℕ) :
    getAgentVersion (agents.view ages (2 + query)) version.agentId version.version
      version.workspaceId = some version := by
  apply getAgentVersion_of_mem (hordered.states _ (Timeline.view_mem hages _))
  have hlater := hordered.view_earlier EarlierAgents.refl hages
    (show 1 ≤ 2 + query by omega)
  exact hlater.versions version hversion

theorem createMultiagentSessionThreads_eq_ok
    (hordered : agents.Ordered AgentHistory EarlierAgents)
    (hdelegations : ∀ rows ∈ agents.history, Delegations rows)
    (hages : Admissible agents ages) (supply : Supply) (session : ManagedSession)
    {coordinator : AgentVersionRow}
    (hcoordinator : coordinator ∈ (agents.view ages 1).versions) :
    ∃ threads, createMultiagentSessionThreads py supply coordinator.workspaceId session
        coordinator (agents.view ages) = .ok threads ∧
      ThreadsOf py agents.current session coordinator threads := by
  have hseen := hdelegations _ (Timeline.view_mem hages 1)
  have hroster : ∀ entry ∈ rosterMembers coordinator.multiagent,
      ∃ referenced : AgentVersionRow,
        (referenced ∈ (agents.view ages 1).versions ∧ RefersTo entry referenced ∧
          referenced.workspaceId = coordinator.workspaceId ∧
          (referenced.multiagent = .null ∨ referenced.agentId = coordinator.agentId)) ∧
        RefersTo entry referenced ∧ referenced.agentId ≠ "" ∧
        ∀ query, getAgentVersion (agents.view ages (2 + query)) referenced.agentId
          referenced.version coordinator.workspaceId = some referenced := by
    intro entry hentry
    obtain ⟨referenced, hmem, hrefers, hworkspace, hid, hplain⟩ :=
      hseen.entries coordinator hcoordinator entry hentry
    refine ⟨referenced, ⟨hmem, hrefers, hworkspace, hplain⟩, hrefers, hid, ?_⟩
    intro query
    rw [← hworkspace]
    exact view_getAgentVersion hordered hages hmem query
  obtain ⟨threads, hthreads, hdelegates⟩ :=
    @delegateThreads_eq_ok py supply coordinator.workspaceId session _ 0 _ _ hroster
  have hkept := (hordered.view_earlier_current EarlierAgents.refl hages 1).versions
  have hall : List.Forall₂ (Delegate py agents.current session coordinator)
      (rosterMembers coordinator.multiagent) threads := by
    refine hdelegates.imp ?_
    rintro entry thread ⟨draw, referenced, ⟨hmem, hrefers, hworkspace, hplain⟩, rfl⟩
    exact ⟨referenced, hkept referenced hmem, hrefers, hworkspace, hplain, rfl⟩
  refine ⟨threads, ?_, hall, ?_, ?_, ?_⟩
  · rw [createMultiagentSessionThreads, threadRoster_eq]
    exact hthreads
  · have hids : threads.map SessionThread.agentId =
        (rosterMembers coordinator.multiagent).map fun entry => entry.get "id" := by
      rw [← List.forall₂_eq_eq_eq, List.forall₂_map_left_iff, List.forall₂_map_right_iff]
      exact hall.flip.imp fun _ _ hdelegate => Delegate.agentId hdelegate
    rw [hids]
    exact hseen.distinct coordinator hcoordinator
  · rw [← hall.length_eq]
    exact hseen.size coordinator hcoordinator
  · intro thread hthread
    obtain ⟨entry, hpair⟩ := exists_of_forall₂ hdelegates hthread
    obtain ⟨draw, referenced, -, rfl⟩ := hpair
    constructor <;> intro hsame <;>
      simpa [delegatedThread, primaryThreadId] using congrArg String.toList hsame

end

/-! ## Later states -/

theorem Staffed.mono
    {py : Python} {rows next : AgentRows} {session : ManagedSession} {team : Team}
    (hstaffed : Staffed py rows session team)
    (hversions : ∀ version ∈ rows.versions, version ∈ next.versions) :
    Staffed py next session team := by
  obtain ⟨coordinator, hmem, hagent, hnumber, hworkspace, hthreads⟩ := hstaffed
  refine ⟨coordinator, hversions coordinator hmem, hagent, hnumber, hworkspace, ?_⟩
  cases hevents : team.creation.initialEvents with
  | some events =>
      rw [hevents] at hthreads
      exact hthreads
  | none =>
      rw [hevents] at hthreads
      refine ⟨hthreads.delegates.imp ?_, hthreads.distinct, hthreads.few,
        hthreads.addressed⟩
      exact fun _ _ hdelegate => hdelegate.mono hversions

theorem step_sameSession
    {py : Python} {world next : World} {label : Label}
    (hstep : ManagedAgents.step py world label = some next) :
    SameSession world.db.session next.db.session := by
  cases step_history hstep with
  | silent hhistory =>
      obtain ⟨hlast, -⟩ := List.cons.inj hhistory
      rw [World.db, World.db, hlast]
      exact ⟨rfl, rfl, rfl⟩
  | session attempt tx db hattempt hbody hcommit hhistory =>
      obtain ⟨hlast, -⟩ := List.cons.inj hhistory
      obtain ⟨-, rfl⟩ := Tx.commit_eq_some.mp hcommit
      rw [World.db, World.db, hlast]
      exact ⟨rfl, rfl, rfl⟩
  | work read work written hread hrow hwrite hhistory =>
      obtain ⟨hlast, -⟩ := List.cons.inj hhistory
      rw [World.db, World.db, hlast]
      exact ⟨rfl, rfl, rfl⟩

/-- A request changes the thread rows one by one, and none of what they were
created with. -/
theorem archiveThreads_eq_map
    (world : World) (threads : List SessionThread) (label : Label) :
    ∃ write : SessionThread → SessionThread,
      (∀ thread, (write thread).asCreated = thread.asCreated) ∧
        archiveThreads world threads label = threads.map write := by
  have hsame : ∃ write : SessionThread → SessionThread,
      (∀ thread, (write thread).asCreated = thread.asCreated) ∧
        threads = threads.map write := ⟨id, fun _ => rfl, (List.map_id _).symm⟩
  unfold archiveThreads
  split
  next process threadId threadExists age context =>
    split
    · exact hsame
    next read hread =>
      split
      · exact hsame
      · refine ⟨_, ?_, rfl⟩
        intro thread
        by_cases hid : thread.id = threadId <;> simp [hid]
  · exact hsame

theorem Staffed.attend
    {py : Python} {rows : AgentRows} {world next : World} {team : Team} {label : Label}
    (other : Label) (hstaffed : Staffed py rows world.db.session team)
    (hstep : ManagedAgents.step py world label = some next) :
    Staffed py rows next.db.session (team.attend world other) := by
  have hsame := step_sameSession hstep
  obtain ⟨coordinator, hmem, hagent, hnumber, hworkspace, hthreads⟩ := hstaffed
  obtain ⟨write, hwrite, hmap⟩ := archiveThreads_eq_map world team.threads other
  refine ⟨coordinator, hmem, hsame.agentId.trans hagent,
    hsame.agentVersion.trans hnumber, hworkspace, ?_⟩
  simp only [Team.attend, hmap]
  cases hevents : team.creation.initialEvents with
  | some events =>
      simp only [hevents] at hthreads
      simp [hthreads]
  | none =>
      simp only [hevents] at hthreads
      constructor
      · rw [List.forall₂_map_right_iff]
        exact hthreads.delegates.imp fun _ thread hdelegate =>
          hdelegate.later hsame (hwrite thread)
      · have hids : (team.threads.map write).map SessionThread.agentId =
            team.threads.map SessionThread.agentId := by
          rw [List.map_map]
          apply List.map_congr_left
          intro thread _
          have hdata := congrArg SessionThread.data (hwrite thread)
          rw [SessionThread.asCreated_data, SessionThread.asCreated_data] at hdata
          simp [SessionThread.agentId, hdata]
        rw [hids]
        exact hthreads.distinct
      · rw [List.length_map]
        exact hthreads.few
      · intro thread hthread
        obtain ⟨before, hbefore, rfl⟩ := List.mem_map.mp hthread
        have hid := congrArg SessionThread.id (hwrite before)
        rw [SessionThread.asCreated_id, SessionThread.asCreated_id] at hid
        rw [hid, primaryThreadId, hsame.id]
        exact hthreads.addressed before hbefore

/-! ## Steps -/

/-- Every session has the threads of its coordinator. -/
structure ThreadedInstallation.Sound (py : Python) (state : ThreadedInstallation) :
    Prop where
  installation : state.installation.Sound
  delegations : ∀ rows ∈ state.installation.agents.history, Delegations rows
  staffed : List.Forall₂
    (fun world team => Staffed py state.installation.agents.current world.db.session team)
    state.installation.sessions state.teams
  ids : (threadIds state.teams).Nodup

theorem ThreadedInstallation.start_sound (py : Python) :
    ThreadedInstallation.start.Sound py where
  installation := Installation.start_sound
  delegations := by
    simp [ThreadedInstallation.start, Installation.start, Timeline.history,
      AgentWorld.start, Delegations.start]
  staffed := List.Forall₂.nil
  ids := List.nodup_nil

theorem forall₂_set
    {First Second : Type} {related : First → Second → Prop} {firsts : List First}
    {seconds : List Second} (hall : List.Forall₂ related firsts seconds) (index : ℕ)
    {first : First} {second : Second} (hpair : related first second) :
    List.Forall₂ related (firsts.set index first) (seconds.set index second) := by
  induction hall generalizing index with
  | nil => exact List.Forall₂.nil
  | cons hhead htail ih =>
      cases index with
      | zero => exact List.Forall₂.cons hpair htail
      | succ index => exact List.Forall₂.cons hhead (ih index)

theorem SessionCreation.pin_eq_some
    {creation : SessionCreation} {view : AgentView} {version : AgentVersionRow}
    (hpin : creation.pin view = some version) :
    version ∈ (view 1).versions ∧ version.workspaceId = creation.workspaceId := by
  unfold SessionCreation.pin at hpin
  split at hpin
  · cases hpin
  · split at hpin
    · cases hpin
    · obtain ⟨hmem, -, -, hworkspace⟩ := getAgentVersion_eq_some hpin
      exact ⟨hmem, hworkspace⟩

/-- The threads of a new session are always created. -/
theorem ThreadedInstallation.Sound.created
    {py : Python} {state : ThreadedInstallation} {creation : SessionCreation}
    {ages : List ℕ} {version : AgentVersionRow} {db : Db} (hsound : state.Sound py)
    (hages : Admissible state.installation.agents ages) (supply : Supply)
    (hpin : creation.pin (state.installation.agents.view ages) = some version)
    (hdb : creation.create py version = some db) :
    ∃ threads, creation.threads py supply db.session version
        (state.installation.agents.view ages) = .ok threads ∧
      Staffed py state.installation.agents.current db.session
        { creation := creation, threads := threads } := by
  have hordered := hsound.installation.agents
  obtain ⟨hmem, hworkspace⟩ := SessionCreation.pin_eq_some hpin
  have hcurrent := SessionCreation.pin_mem hordered hages hpin
  obtain ⟨-, hagent, hnumber⟩ := SessionCreation.create_created hdb
  cases hevents : creation.initialEvents with
  | some events =>
      refine ⟨[], by rw [SessionCreation.threads, hevents], version, hcurrent, hagent,
        hnumber, hworkspace, ?_⟩
      simp [hevents]
  | none =>
      obtain ⟨threads, hthreads, hof⟩ := createMultiagentSessionThreads_eq_ok hordered
        hsound.delegations hages supply db.session hmem
      refine ⟨threads, ?_, version, hcurrent, hagent, hnumber, hworkspace, ?_⟩
      · simp only [SessionCreation.threads, hevents, ← hworkspace]
        exact hthreads
      · simp only [hevents]
        exact hof

theorem ThreadedInstallation.Sound.staffed_get
    {py : Python} {state : ThreadedInstallation} (hsound : state.Sound py) {index : ℕ}
    {world : World} {team : Team}
    (hworld : state.installation.sessions[index]? = some world)
    (hteam : state.teams[index]? = some team) :
    Staffed py state.installation.agents.current world.db.session team := by
  obtain ⟨hlt, hget⟩ := List.getElem?_eq_some_iff.mp hworld
  obtain ⟨hlt', hget'⟩ := List.getElem?_eq_some_iff.mp hteam
  have hstaffed := hsound.staffed.get hlt hlt'
  simpa only [List.get_eq_getElem, hget, hget'] using hstaffed

theorem threadIds_eq_flatten (teams : List Team) :
    threadIds teams =
      (teams.map fun team => team.threads.map SessionThread.id).flatten := by
  rw [threadIds, List.map_flatMap, List.flatMap_def]

theorem threadIds_set
    {teams : List Team} {index : ℕ} {team later : Team}
    (hteam : teams[index]? = some team)
    (hids : later.threads.map SessionThread.id = team.threads.map SessionThread.id) :
    threadIds (teams.set index later) = threadIds teams := by
  obtain ⟨hlt, rfl⟩ := List.getElem?_eq_some_iff.mp hteam
  rw [threadIds_eq_flatten, threadIds_eq_flatten, List.map_set, hids]
  have hsame := @List.set_getElem_self _
    (teams.map fun member => member.threads.map SessionThread.id) index
      (by simpa using hlt)
  rw [List.getElem_map] at hsame
  rw [hsame]

theorem createTeamStep_sound
    {py : Python} {state next : ThreadedInstallation} {creation : SessionCreation}
    {ages : List ℕ} {supply : Supply} (hsound : state.Sound py)
    (hstep : createTeamStep py state creation ages supply = some next) :
    createSessionStep py state.installation creation ages = some next.installation ∧
      next.Sound py := by
  unfold createTeamStep at hstep
  split at hstep
  next hages =>
    simp only [createSessionStep, if_pos hages]
    cases hpin : creation.pin (state.installation.agents.view ages) with
    | none =>
        simp only [hpin, Option.some.injEq] at hstep
        subst hstep
        exact ⟨rfl, hsound⟩
    | some version =>
        cases hdb : creation.create py version with
        | none =>
            simp only [hpin, hdb, Option.some.injEq] at hstep
            subst hstep
            exact ⟨by simp [hdb], hsound⟩
        | some db =>
            obtain ⟨threads, hthreads, hstaffed⟩ := hsound.created hages supply hpin hdb
            simp only [hpin, hdb, hthreads] at hstep
            split at hstep
            next hids =>
              cases hstep
              have hplain : createSessionStep py state.installation creation ages =
                  some { state.installation with
                    sessions := state.installation.sessions ++ [World.start db] } := by
                simp [createSessionStep, hages, hpin, hdb]
              refine ⟨by simp [hdb], createSessionStep_sound hsound.installation hplain,
                hsound.delegations, ?_, hids⟩
              exact List.rel_append hsound.staffed
                (List.Forall₂.cons hstaffed List.Forall₂.nil)
            next => cases hstep
  next => cases hstep

theorem teamSessionStep_sound
    {py : Python} {state next : ThreadedInstallation} {index : ℕ} {label : Label}
    {workspaceId : String} {age : ℕ} (hsound : state.Sound py)
    (hstep : teamSessionStep py state index label workspaceId age = some next) :
    sessionStep py state.installation index label workspaceId age =
        some next.installation ∧ next.Sound py := by
  obtain ⟨world, hworld, hstep⟩ := Option.bind_eq_some_iff.mp hstep
  obtain ⟨team, hteam, hstep⟩ := Option.bind_eq_some_iff.mp hstep
  split at hstep
  next =>
    obtain ⟨after, hafter, rfl⟩ := Option.map_eq_some_iff.mp hstep
    refine ⟨hafter, ?_⟩
    have hafterSound := sessionStep_sound hsound.installation hafter
    obtain ⟨found, hfound, hmap⟩ := Option.bind_eq_some_iff.mp hafter
    obtain ⟨later, hlater, rfl⟩ := Option.map_eq_some_iff.mp hmap
    obtain rfl : world = found := Option.some.inj (hworld.symm.trans hfound)
    refine ⟨hafterSound, hsound.delegations, ?_, ?_⟩
    · refine forall₂_set hsound.staffed index ?_
      exact (hsound.staffed_get hworld hteam).attend label hlater
    · obtain ⟨write, hwrite, hthreads⟩ := archiveThreads_eq_map world team.threads label
      have hids : (team.attend world label).threads.map SessionThread.id =
          team.threads.map SessionThread.id := by
        simp only [Team.attend, hthreads, List.map_map]
        apply List.map_congr_left
        intro thread _
        simpa using congrArg SessionThread.id (hwrite thread)
      rw [threadIds_set hteam hids]
      exact hsound.ids
  next => cases hstep

/-- A step with threads is the step without them. -/
theorem threadedStep_sound
    {py : Python} {state next : ThreadedInstallation} {label : ThreadedLabel}
    (hsound : state.Sound py) (hstep : threadedStep py state label = some next) :
    installationStep py state.installation label.plain = some next.installation ∧
      next.Sound py := by
  cases label with
  | agents label =>
      obtain ⟨after, hafter, rfl⟩ := Option.map_eq_some_iff.mp hstep
      have hafterSound := installationStep_sound hsound.installation hafter
      obtain ⟨agents, hagents, rfl⟩ := Option.map_eq_some_iff.mp hafter
      have hordered := hsound.installation.agents
      refine ⟨hafter, hafterSound,
        agent_step_delegations hordered hsound.delegations hagents, ?_, hsound.ids⟩
      exact hsound.staffed.imp fun _ _ hstaffed =>
        hstaffed.mono (agent_step_kept hordered hagents)
  | create creation ages supply => exact createTeamStep_sound hsound hstep
  | session index label workspaceId age => exact teamSessionStep_sound hsound hstep

theorem threaded_run_sound
    {py : Python} {labels : List ThreadedLabel} {start last : ThreadedInstallation}
    (hsound : start.Sound py) (hrun : run (threadedStep py) start labels = some last) :
    run (installationStep py) start.installation (labels.map ThreadedLabel.plain) =
        some last.installation ∧ last.Sound py := by
  induction labels generalizing start with
  | nil =>
      cases hrun
      exact ⟨rfl, hsound⟩
  | cons label rest ih =>
      obtain ⟨next, hstep, hrest⟩ := run_cons_eq_some.mp hrun
      obtain ⟨hplain, hnext⟩ := threadedStep_sound hsound hstep
      obtain ⟨hrestPlain, hlast⟩ := ih hnext hrest
      exact ⟨run_cons_eq_some.mpr ⟨_, hplain, hrestPlain⟩, hlast⟩

/-- However requests for agents and sessions interleave, no session is refused
for its threads, and each has one thread for each entry of the roster of its
version: with that agent's version as it was stored, in the same workspace. -/
theorem sessions_staffed
    {py : Python} {labels : List ThreadedLabel} {last : ThreadedInstallation}
    (hrun : run (threadedStep py) ThreadedInstallation.start labels = some last) :
    run (installationStep py) Installation.start (labels.map ThreadedLabel.plain) =
        some last.installation ∧
      List.Forall₂
        (fun world team =>
          Staffed py last.installation.agents.current world.db.session team)
        last.installation.sessions last.teams ∧
      (threadIds last.teams).Nodup := by
  obtain ⟨hplain, hlast⟩ := threaded_run_sound (ThreadedInstallation.start_sound py) hrun
  exact ⟨hplain, hlast.staffed, hlast.ids⟩

/-- A clerk, a lead with the clerk and itself in its roster, and a session of the
lead; the clerk and then its thread are archived. -/
def sampleTeams : ThreadedInstallation :=
  (run (threadedStep samplePython) ThreadedInstallation.start
    [.agents (sampleAgentCall "a" (.create { name := "clerk", model := .str "sonnet" })),
     .agents (sampleAgentCall "b" (.create
      { name := "lead", model := .str "sonnet"
        multiagent := some
          [("type", .str "coordinator"),
           ("agents", .list [.str "agt_a0", .dict [("type", .str "self")]])] })),
     .create
      { workspaceId := "wrkspc_default", agentId := "agt_b0", version := none
        seed := sampleSeed, context := sampleContext "c", initialEvents := none } [0, 0]
      { uuidHex := fun draw => "d" ++ toString draw, clock := fun _ => 0 },
     .agents (sampleAgentCall "e" (.archive "agt_a0")),
     .session 0 (.request 0 (.archiveSessionThread "thread_d0" true) 0
      (sampleContext "f")) "wrkspc_default" 0]).get (by decide)

theorem sample_sessions_staffed :
    (sampleTeams.teams.flatMap Team.threads).map SessionThread.name =
        ["agent:agt_a0:1", "agent:agt_b0:1"] ∧
      List.Forall₂
        (fun world team => Staffed samplePython sampleTeams.installation.agents.current
          world.db.session team)
        sampleTeams.installation.sessions sampleTeams.teams :=
  ⟨by decide, (@sessions_staffed samplePython _ sampleTeams (Option.some_get _).symm).2.1⟩

end ManagedAgents
