import ManagedAgents.AgentCommits
import ManagedAgents.CommittedStates

/-!
# The versions of an agent

What holds in every run of agent requests: the numbers of the versions, that no
version row is written again, and where each version comes from.
-/

namespace ManagedAgents

open Fallible LabelledRuns ReadCommitted

/-! ## Runs -/

theorem AgentHistory.start : AgentHistory {} := by
  constructor <;> simp

theorem AgentWorld.start_ordered :
    AgentWorld.start.Ordered AgentHistory EarlierAgents := by
  constructor <;> simp [Timeline.history, AgentWorld.start, AgentHistory.start]

theorem agent_step_ordered
    {py : Python} {world next : AgentWorld} {label : AgentCall × List ℕ}
    (hordered : world.Ordered AgentHistory EarlierAgents)
    (hstep : agentStep py world label = some next) :
    next.Ordered AgentHistory EarlierAgents := by
  refine step_ordered EarlierAgents.refl EarlierAgents.trans ?_ hordered hstep
  intro call view current after hreads hbody
  have hcommitted := AgentCall.committed hreads hbody
  exact ⟨hcommitted.history hreads.invariant, hcommitted.earlier hreads.invariant⟩

/-- A property of committed rows which every commit keeps is kept by a step. -/
theorem agent_step_property
    {py : Python} {Property : AgentRows → Prop}
    (hkeeps : ∀ call view current next, AgentReads view current → Property current →
      AgentCommit py call view current next → Property next)
    {world next : AgentWorld} {label : AgentCall × List ℕ}
    (hordered : world.Ordered AgentHistory EarlierAgents)
    (hproperty : ∀ rows ∈ world.history, Property rows)
    (hstep : agentStep py world label = some next) :
    ∀ rows ∈ next.history, Property rows := by
  obtain ⟨hages, rfl | ⟨state, hbody, rfl⟩⟩ := step_cases hstep
  · exact hproperty
  · have hreads := hordered.reads EarlierAgents.refl hages
    exact List.forall_mem_cons.mpr
      ⟨hkeeps label.1 _ _ state hreads (hproperty _ List.mem_cons_self)
        (AgentCall.committed hreads hbody), hproperty⟩

/-- A step keeps the version rows. -/
theorem agent_step_kept
    {py : Python} {world next : AgentWorld} {label : AgentCall × List ℕ}
    (hordered : world.Ordered AgentHistory EarlierAgents)
    (hstep : agentStep py world label = some next) :
    ∀ version ∈ world.current.versions, version ∈ next.current.versions := by
  obtain ⟨hages, rfl | ⟨state, hbody, rfl⟩⟩ := step_cases hstep
  · exact fun _ hmem => hmem
  · have hreads := hordered.reads EarlierAgents.refl hages
    exact ((AgentCall.committed hreads hbody).earlier hreads.invariant).versions

theorem agent_run_ordered
    {py : Python} {calls : List (AgentCall × List ℕ)} {last : AgentWorld}
    (hrun : run (agentStep py) AgentWorld.start calls = some last) :
    last.Ordered AgentHistory EarlierAgents :=
  run_invariant (fun _ _ _ hordered hstep => agent_step_ordered hordered hstep)
    AgentWorld.start_ordered hrun

/-- The version is the first one, or one of the requests merged its patch onto
the version before. -/
def StemsFrom (py : Python) (calls : List (AgentCall × List ℕ))
    (history : List AgentRows) (rows : AgentRows) (version : AgentVersionRow) : Prop :=
  version.version = 1 ∨ ∃ label ∈ calls, ∃ view body, ∃ active ∈ rows.versions,
    (∀ query, view query ∈ history) ∧
      label.1.request = .update version.agentId body ∧ body.version = active.version ∧
      MergedOnto py label.1 view body active version

theorem StemsFrom.mono
    {py : Python} {calls : List (AgentCall × List ℕ)} {history later : List AgentRows}
    {rows next : AgentRows} {version : AgentVersionRow}
    (hstems : StemsFrom py calls history rows version)
    (hhistory : ∀ state ∈ history, state ∈ later)
    (hrows : ∀ row ∈ rows.versions, row ∈ next.versions) :
    StemsFrom py calls later next version := by
  obtain hfirst | ⟨label, hlabel, view, body, active, hactive, hview, hmerged⟩ := hstems
  · exact Or.inl hfirst
  · exact Or.inr ⟨label, hlabel, view, body, active, hrows active hactive,
      fun query => hhistory _ (hview query), hmerged⟩

theorem AgentCommit.stems
    {py : Python} {calls : List (AgentCall × List ℕ)} {label : AgentCall × List ℕ}
    {view : AgentView} {current next : AgentRows} {history : List AgentRows}
    (hlabel : label ∈ calls) (hview : ∀ query, view query ∈ history)
    (hcurrent : ∀ version ∈ current.versions, StemsFrom py calls history current version)
    (hcommitted : AgentCommit py label.1 view current next) :
    ∀ version ∈ next.versions, StemsFrom py calls history next version := by
  intro version hversion
  cases hcommitted with
  | created agent first hcreation =>
      rcases List.mem_append.mp hversion with hversion | hversion
      · exact (hcurrent version hversion).mono (fun _ hmem => hmem)
          fun _ hmem => List.mem_append_left _ hmem
      · obtain rfl := List.mem_singleton.mp hversion
        exact Or.inl hcreation.number
  | updated agent active added columns hupdated =>
      rcases List.mem_append.mp hversion with hversion | hversion
      · exact (hcurrent version hversion).mono (fun _ hmem => hmem)
          fun _ hmem => List.mem_append_left _ hmem
      · obtain rfl := List.mem_singleton.mp hversion
        obtain ⟨body, hrequest, hnamed, hmerged⟩ := hupdated.request
        rw [← hupdated.activeOwner, ← hmerged.fields.1] at hrequest
        exact Or.inr ⟨label, hlabel, view, body, active,
          List.mem_append_left _ hupdated.activeMem, hview, hrequest, hnamed, hmerged⟩
  | archived agentId now hrequest => exact hcurrent version hversion

theorem agent_run_stems
    {py : Python} {calls : List (AgentCall × List ℕ)} {last : AgentWorld}
    (hrun : run (agentStep py) AgentWorld.start calls = some last) :
    ∀ rows ∈ last.history, ∀ version ∈ rows.versions,
      StemsFrom py calls last.history rows version := by
  have hkeeps : ∀ (world : AgentWorld) (label : AgentCall × List ℕ) (next : AgentWorld),
      (world.Ordered AgentHistory EarlierAgents ∧ ∀ rows ∈ world.history,
        ∀ version ∈ rows.versions, StemsFrom py calls world.history rows version) →
      label ∈ calls → agentStep py world label = some next →
      next.Ordered AgentHistory EarlierAgents ∧ ∀ rows ∈ next.history,
        ∀ version ∈ rows.versions, StemsFrom py calls next.history rows version := by
    rintro world label next ⟨hordered, hstems⟩ hlabel hstep
    refine ⟨agent_step_ordered hordered hstep, ?_⟩
    obtain ⟨hages, rfl | ⟨state, hbody, rfl⟩⟩ := step_cases hstep
    · exact hstems
    · have hcommitted :=
        AgentCall.committed (hordered.reads EarlierAgents.refl hages) hbody
      have hafter := hcommitted.stems hlabel (Timeline.view_mem hages)
        (hstems _ List.mem_cons_self)
      have hmore : ∀ rows ∈ world.history, rows ∈ state :: world.history :=
        fun _ hmem => List.mem_cons_of_mem _ hmem
      intro rows hrows version hversion
      rcases List.mem_cons.mp hrows with rfl | hrows
      · exact (hafter version hversion).mono hmore fun _ hmem => hmem
      · exact (hstems rows hrows version hversion).mono hmore fun _ hmem => hmem
  have hstart : ∀ rows ∈ AgentWorld.start.history, ∀ version ∈ rows.versions,
      StemsFrom py calls AgentWorld.start.history rows version := by
    simp [Timeline.history, AgentWorld.start]
  exact (run_invariant_of_allSteps hkeeps ⟨AgentWorld.start_ordered, hstart⟩
    (allSteps_mem _ _) hrun).2

/-- An accepted update named the version that was active when it was read; it is
answered with that version or with its merge onto it. -/
def NamedActive (py : Python) (world : AgentWorld) (label : AgentCall × List ℕ) : Prop :=
  ∀ agentId body outcome, label.1.request = .update agentId body →
    label.1.handle py (world.view label.2) = .ok outcome →
    ∃ held ∈ (world.view label.2 0).agents, ∃ active ∈ world.current.versions,
      held.id = agentId ∧ active.agentId = agentId ∧
      held.activeVersion = active.version ∧ body.version = active.version ∧
      (outcome.statements = [] ∧ outcome.version = active ∨
        MergedOnto py label.1 (world.view label.2) body active outcome.version)

theorem updateAgent_named
    {py : Python} {call : AgentCall} {view : AgentView} {current : AgentRows}
    {agentId : String} {body : AgentUpdateRequest} {outcome : AgentOutcome}
    (hreads : AgentReads view current)
    (houtcome : updateAgent py call.context agentId body view = .ok outcome) :
    ∃ held ∈ (view 0).agents, ∃ active ∈ current.versions,
      held.id = agentId ∧ active.agentId = agentId ∧
      held.activeVersion = active.version ∧ body.version = active.version ∧
      (outcome.statements = [] ∧ outcome.version = active ∨
        MergedOnto py call view body active outcome.version) := by
  obtain ⟨held, active, update, config, written, hheld, hactive, hversion, hupdate,
    hconfig, hbindings, hwritten, hresolve⟩ := updateAgent_eq_ok houtcome
  obtain ⟨hheldMem, hheldId, -⟩ := mustGetAgent_eq_ok hheld
  obtain ⟨hactiveMem, howner, hnumber, hworkspace⟩ := mustGetActiveVersion_eq_ok hactive
  have hactiveRoster := (hreads.views 1).rosters active hactiveMem
  refine ⟨held, hheldMem, active, (hreads.kept 1).versions active hactiveMem, hheldId,
    howner.trans hheldId, hnumber.symm, by rw [hversion, hnumber], ?_⟩
  rcases writeAgentVersion_eq_ok hwritten with ⟨-, rfl⟩ | ⟨-, rfl⟩
  · exact Or.inl (resolveRoster_unchanged hactiveRoster hresolve)
  · simp only [resolveRoster, bind_eq_ok, pure_eq_ok] at hresolve
    obtain ⟨resolved, hresolved, rfl⟩ := hresolve
    refine Or.inr
      ⟨held, update, config, resolved, ?_, hupdate, hconfig, hbindings, ?_, ?_⟩
    · rw [howner, hheldId]
      exact hheld
    · rw [howner, hnumber]
      exact hresolved
    · rw [howner, hnumber, hworkspace]
      rfl

theorem agent_run_named
    {py : Python} {calls : List (AgentCall × List ℕ)} {last : AgentWorld}
    (hrun : run (agentStep py) AgentWorld.start calls = some last) :
    AllSteps (agentStep py) (NamedActive py) AgentWorld.start calls := by
  refine allSteps_of_run ?_ AgentWorld.start_ordered hrun
  intro world label next hordered hstep
  refine ⟨agent_step_ordered hordered hstep, ?_⟩
  intro agentId body outcome hrequest houtcome
  obtain ⟨hages, -⟩ := step_cases hstep
  rw [AgentCall.handle, hrequest] at houtcome
  exact updateAgent_named (hordered.reads EarlierAgents.refl hages) houtcome

/-- In every committed state the versions of an agent are numbered up to the
active one, which the agent row repeats; version rows are never written again;
every version after the first is the merge of a patch that named the version
before it. -/
theorem agent_version_chain
    {py : Python} {calls : List (AgentCall × List ℕ)} {last : AgentWorld}
    (hrun : run (agentStep py) AgentWorld.start calls = some last) :
    (∀ rows ∈ last.history, ∀ agent ∈ rows.agents,
      ((agentVersions rows agent.id).map fun version => version.version) =
          List.range' 1 agent.activeVersion ∧
        ∃ active ∈ rows.versions, active.agentId = agent.id ∧
          active.version = agent.activeVersion ∧ Repeats agent active) ∧
      (last.history.Pairwise fun newer older => ∀ version ∈ older.versions,
        version ∈ newer.versions ∧ ∀ later ∈ newer.versions,
          later.id = version.id ∨
            later.agentId = version.agentId ∧ later.version = version.version →
          later = version) ∧
      (∀ rows ∈ last.history, ∀ version ∈ rows.versions,
        StemsFrom py calls last.history rows version) ∧
      AllSteps (agentStep py) (NamedActive py) AgentWorld.start calls := by
  have hordered := agent_run_ordered hrun
  refine ⟨?_, ?_, agent_run_stems hrun, agent_run_named hrun⟩
  · intro rows hrows agent hagent
    have hhistory := hordered.states rows hrows
    refine ⟨hhistory.numbers agent hagent, ?_⟩
    obtain ⟨active, hactive, howner, hnumber⟩ :=
      hhistory.exists_version hagent (hhistory.active agent hagent) le_rfl
    exact ⟨active, hactive, howner, hnumber,
      hhistory.copies agent hagent active hactive howner hnumber⟩
  · refine hordered.order.imp_of_mem ?_
    intro newer older hnewer _ hearlier version hversion
    have hhistory := hordered.states newer hnewer
    have hkept := hearlier.versions version hversion
    refine ⟨hkept, ?_⟩
    rintro later hlater (hid | ⟨howner, hnumber⟩)
    · exact List.inj_on_of_nodup_map hhistory.versionIds hlater hkept hid
    · exact hhistory.version_unique hlater hkept howner hnumber

/-! ## A sample agent -/

def sampleAgentCall (tag : String) (request : AgentRequest) : AgentCall × List ℕ :=
  ({ context :=
      { workspaceId := "wrkspc_default"
        supply := { uuidHex := fun draw => tag ++ toString draw, clock := fun _ => 0 }
        resources := fun _ => [] }
     request := request }, [])

def sampleRoster : Dict :=
  [("type", .str "coordinator"), ("agents", .list [.dict [("type", .str "self")]])]

/-- An agent with itself in its roster. -/
def sampleCoordinator : AgentCall × List ℕ :=
  sampleAgentCall "a" (.create
    { name := "lead", model := .str "sonnet", multiagent := some sampleRoster })

def sampleRename : AgentCall × List ℕ :=
  sampleAgentCall "b" (.update "agt_a0" { version := 1, name := some (some "chief") })

def renamedAgents : AgentWorld :=
  (run (agentStep samplePython) AgentWorld.start
    [sampleCoordinator, sampleRename, sampleAgentCall "c" (.archive "agt_a0")]).get
    (by decide)

def renamedLead : Agent where
  id := "agt_a0"
  workspaceId := "wrkspc_default"
  name := "chief"
  description := none
  activeVersion := 2
  metadata := []
  archivedAt := some 0

theorem sample_agent_version_chain :
    ((agentVersions renamedAgents.current "agt_a0").map fun version => version.version) =
      [1, 2] :=
  ((@agent_version_chain samplePython _ renamedAgents (Option.some_get _).symm).1
    renamedAgents.current List.mem_cons_self renamedLead (by decide)).1

end ManagedAgents
