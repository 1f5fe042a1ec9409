import ManagedAgents.Executions
import ManagedAgents.WorkRows

/-!
# Delivery of enqueued input

A work item which `send_events` created is answered once a turn has loaded
the history with its events in it, or once the session was interrupted,
terminated or deleted after them.  An executor cannot tell a skipped turn from
a finished one, so an item can be marked completed unanswered: when its turn
is skipped by a guard, and when its turn failed before it loaded anything and
the session has moved on since.  Without such steps every completed item is
answered, and was completed by an execution whose turn has started.
-/

namespace ManagedAgents

open LabelledRuns

/-! ## Items and their input -/

def Commit.isSend (commit : Commit) : Bool :=
  match commit.writer.request? with
  | some (.sendEvents _ _) => true
  | _ => false

def workIdsIn (history : List Commit) : List String :=
  (history.head?.map fun commit => commit.db.workIds).getD []

/-- The item was enqueued by a commit of `send_events`. -/
def createdBySend : List Commit → String → Bool
  | [], _ => false
  | commit :: older, workId =>
      (commit.isSend && decide (workId ∈ commit.db.workIds) &&
        decide (workId ∉ workIdsIn older)) ||
        createdBySend older workId

/-- A turn loaded its history from a state with the item and its events. -/
def Delivered (history : List Commit) (workId : String) : Prop :=
  ∃ commit ∈ history, commit.isLoad = true ∧ workId ∈ commit.read.workIds

/-- The session was interrupted, terminated or deleted after the item was
enqueued. -/
def CalledOff (history : List Commit) (workId : String) : Prop :=
  ∃ commit ∈ history, workId ∈ commit.db.workIds ∧
    (commit.isInterrupt = true ∨ commit.db.session.status = .terminated ∨
      commit.db.session.deletedAt.isSome = true)

def Answered (history : List Commit) (workId : String) : Prop :=
  createdBySend history workId = true →
    Delivered history workId ∨ CalledOff history workId

instance (history : List Commit) (workId : String) :
    Decidable (Answered history workId) :=
  inferInstanceAs
    (Decidable (_ → (∃ commit ∈ history, _ ∧ _) ∨ ∃ commit ∈ history, _ ∧ (_ ∨ _ ∨ _)))

/-- Every completed item is answered. -/
def InputsDelivered (world : World) : Prop :=
  ∀ work ∈ world.db.work, work.status = .completed →
    Answered world.history work.id

/-! ## Skipped turns -/

/-- The turn of the execution failed, and its failure was recorded. -/
def RecordedFailure (history : List Commit) (id : ExecutionId) : Prop :=
  ∃ commit ∈ history, commit.isFailure = true ∧ commit.author = some id

instance (history : List Commit) (id : ExecutionId) :
    Decidable (RecordedFailure history id) :=
  inferInstanceAs (Decidable (∃ commit ∈ history, _ ∧ _))

def refusesStart (session : ManagedSession) : Bool :=
  session.deletedAt.isSome || !canStartWork session.status session.stopReason

/-- The item whose turn is skipped by the step: its session is running in this
process, or cannot be started, or the turn failed and the session it left to
be rescheduled is found in another state. -/
def World.skipped (world : World) : Label → Option String
  | .move id .enter =>
      match world.executions id with
      | some { process, workId, phase := .claimed, .. } =>
          if world.running process then some workId else none
      | _ => none
  | .turn id .start age _ =>
      match world.reading id age with
      | some ({ workId, phase := .entered, .. }, read) =>
          if refusesStart read.session then some workId else none
      | _ => none
  | .finish id age _ =>
      match world.reading id age with
      | some ({ workId, phase := .finishing, .. }, read) =>
          if RecordedFailure world.history id ∧
              read.session.status ≠ .rescheduling then some workId
          else none
      | _ => none
  | _ => none

/-- No turn is skipped whose input is unanswered. -/
def NoSkippedInput (world : World) (label : Label) : Prop :=
  ∀ workId ∈ world.skipped label, Answered world.history workId

instance (world : World) (label : Label) :
    Decidable (NoSkippedInput world label) :=
  inferInstanceAs (Decidable (∀ workId ∈ world.skipped label, _))

/-! ## Turns that return early -/

/-- The turn of the execution has started: no guard has made `run_session_turn`
return. -/
def TurnStarted (history : List Commit) (id : ExecutionId) : Prop :=
  ∃ commit ∈ history, commit.isStart = true ∧ commit.author = some id

/-- The step completes no item, or ends an execution of it whose turn has
started. -/
def CompletesTurn (py : Python) (world : World) (label : Label) : Prop :=
  ∀ next, step py world label = some next →
    ∀ row ∈ next.db.work, row.status = .completed →
      (∃ old ∈ world.db.work, old.id = row.id ∧ old.status = .completed) ∨
        ∃ id age now execution, label = .finish id age now ∧
          world.executions id = some execution ∧ execution.workId = row.id ∧
          TurnStarted world.history id

/-- `run_session_turn` returns early: its session is running in this process, or
cannot be started. -/
def World.returnsEarly (world : World) : Label → Bool
  | .move id .enter =>
      match world.executions id with
      | some { process, phase := .claimed, .. } => world.running process
      | _ => false
  | .turn id .start age _ =>
      match world.reading id age with
      | some ({ phase := .entered, .. }, read) => refusesStart read.session
      | _ => false
  | _ => false

/-- No turn returns early, and none that has failed is taken for a finished one
while its input is unanswered. -/
def NoSkippedTurn (world : World) (label : Label) : Prop :=
  world.returnsEarly label = false ∧ NoSkippedInput world label

instance (world : World) (label : Label) : Decidable (NoSkippedTurn world label) :=
  inferInstanceAs (Decidable (_ ∧ _))

/-! ## Growing histories -/

theorem Answered.of_delivered
    {history : List Commit} {workId : String}
    (hdelivered : Delivered history workId) : Answered history workId :=
  fun _ => Or.inl hdelivered

theorem Answered.cons
    {commit : Commit} {history : List Commit} {workId : String}
    (hanswered : Answered history workId) (hrow : workId ∈ workIdsIn history) :
    Answered (commit :: history) workId := by
  intro hcreated
  have hbefore : createdBySend history workId = true := by
    unfold createdBySend at hcreated
    simpa [hrow] using hcreated
  rcases hanswered hbefore with ⟨load, hload, hfacts⟩ | ⟨end_, hend, hfacts⟩
  · exact Or.inl ⟨load, List.mem_cons_of_mem _ hload, hfacts⟩
  · exact Or.inr ⟨end_, List.mem_cons_of_mem _ hend, hfacts⟩

theorem RecordedFailure.cons
    {commit : Commit} {history : List Commit} {id : ExecutionId}
    (hrecorded : RecordedFailure history id) :
    RecordedFailure (commit :: history) id := by
  obtain ⟨failure, hfailure, hfacts⟩ := hrecorded
  exact ⟨failure, List.mem_cons_of_mem _ hfailure, hfacts⟩

theorem World.snapshot_eq_some
    {world : World} {since age : ℕ} {read : Db} :
    world.snapshot since age = some read ↔
      age + since ≤ world.history.length ∧
        world.history[age]?.map Commit.db = some read := by
  unfold World.snapshot
  split
  · next hage => simp [hage]
  · next hage => simp [hage]

/-! ## What an execution knows about its item -/

/-- Every state read after the first `since` commits has the item's row. -/
structure SeesWork (world : World) (workId : String) (since : ℕ) : Prop where
  since_le : since ≤ world.history.length
  reads : ∀ age read, world.snapshot since age = some read →
    workId ∈ read.workIds

section

variable {world next : World} {workId : String} {since : ℕ}

theorem SeesWork.row (hsees : SeesWork world workId since) :
    workId ∈ world.db.workIds := by
  apply hsees.reads 0 world.db
  rw [World.snapshot_eq_some]
  exact ⟨by simpa using hsees.since_le, rfl⟩

theorem SeesWork.later
    (hsees : SeesWork world workId since) {later : ℕ}
    (hlater : since ≤ later) (hle : later ≤ world.history.length) :
    SeesWork world workId later where
  since_le := hle
  reads := by
    intro age read hread
    apply hsees.reads age read
    rw [World.snapshot_eq_some] at hread ⊢
    exact ⟨by omega, hread.2⟩

theorem SeesWork.of_history_eq
    (hsees : SeesWork world workId since)
    (hhistory : next.history = world.history) :
    SeesWork next workId since where
  since_le := by
    rw [hhistory]
    exact hsees.since_le
  reads := by
    intro age read hread
    rw [World.snapshot_eq_some, hhistory, ← World.snapshot_eq_some] at hread
    exact hsees.reads age read hread

theorem SeesWork.cons
    (hsees : SeesWork world workId since) {commit : Commit}
    (hhistory : next.history = commit :: world.history)
    (hrows : world.db.workIds ⊆ commit.db.workIds) :
    SeesWork next workId since where
  since_le := by
    rw [hhistory, List.length_cons]
    exact Nat.le_succ_of_le hsees.since_le
  reads := by
    intro age read hread
    rw [World.snapshot_eq_some, hhistory] at hread
    obtain ⟨hage, hget⟩ := hread
    cases age with
    | zero =>
        obtain rfl : commit.db = read := by simpa using hget
        exact hrows hsees.row
    | succ age =>
        apply hsees.reads age read
        rw [World.snapshot_eq_some]
        rw [List.length_cons] at hage
        exact ⟨by omega, by simpa using hget⟩

theorem SeesWork.step
    {py : Python} {label : Label} (hsees : SeesWork world workId since)
    (hstep : step py world label = some next) :
    SeesWork next workId since := by
  rcases step_grows hstep with hhistory | ⟨commit, hhistory, hrows⟩
  · exact hsees.of_history_eq hhistory
  · exact hsees.cons hhistory hrows

end

/-- What the phase of an execution says about its item. -/
def Phase.Expects (history : List Commit) (id : ExecutionId) (workId : String) :
    Phase → Prop
  | .loaded _ | .executed _ _ => Answered history workId
  | .returned | .finishing =>
      Answered history workId ∨ RecordedFailure history id
  | _ => True

theorem Phase.Expects.cons
    {history : List Commit} {id : ExecutionId} {workId : String} {phase : Phase}
    (hexpects : phase.Expects history id workId)
    (hrow : workId ∈ workIdsIn history) (commit : Commit) :
    phase.Expects (commit :: history) id workId := by
  cases phase with
  | loaded turn | executed turn result => exact Answered.cons hexpects hrow
  | returned | finishing =>
      exact hexpects.imp (fun hanswered => hanswered.cons hrow)
        RecordedFailure.cons
  | _ => trivial

structure Execution.Tracks (world : World) (id : ExecutionId)
    (execution : Execution) : Prop where
  sees : SeesWork world execution.workId execution.since
  expects : execution.phase.Expects world.history id execution.workId

theorem Execution.Tracks.step
    {py : Python} {world next : World} {label : Label} {id : ExecutionId}
    {execution : Execution} (htracks : execution.Tracks world id)
    (hstep : ManagedAgents.step py world label = some next) :
    execution.Tracks next id := by
  refine ⟨htracks.sees.step hstep, ?_⟩
  rcases step_grows hstep with hhistory | ⟨commit, hhistory, -⟩
  · rw [hhistory]
    exact htracks.expects
  · rw [hhistory]
    exact htracks.expects.cons htracks.sees.row commit

/-! ## One step of an execution -/

theorem Execution.Tracks.claimed
    {py : Python} {world next : World} {label : Label} {id : ExecutionId}
    {after : Execution} {read : Db} {work : EnvironmentWork}
    (hrows : ∀ commit ∈ world.history, commit.db.workIds ⊆ world.db.workIds)
    (hstep : ManagedAgents.step py world label = some next)
    (hphase : after.phase = .claimed)
    (hsince : after.since = next.history.length)
    (hread : read ∈ world.history.map Commit.db) (hrow : work ∈ read.work)
    (hwork : work.id = after.workId) :
    after.Tracks next id := by
  obtain ⟨commit, hcommit, rfl⟩ := List.mem_map.mp hread
  have hbefore : after.workId ∈ world.db.workIds := by
    rw [← hwork]
    exact hrows commit hcommit (Db.mem_workIds hrow)
  have hsees : SeesWork world after.workId world.history.length := by
    refine ⟨le_rfl, ?_⟩
    intro age state hstate
    rw [World.snapshot_eq_some] at hstate
    obtain rfl : age = 0 := by omega
    obtain rfl : world.db = state := Option.some.inj hstate.2
    exact hbefore
  constructor
  · have hnext := hsees.step hstep
    exact hnext.later (hsince ▸ hnext.since_le) hsince.le
  · rw [hphase]
    trivial

theorem Execution.Tracks.moved
    {world next : World} {id : ExecutionId} {before after : Execution} {move : Move}
    (htracks : before.Tracks world id)
    (hskipped : NoSkippedInput world (.move id move))
    (hhistory : next.history = world.history)
    (hbefore : world.executions id = some before)
    (hphase : move.phase (world.running before.process) before.phase =
      some after.phase)
    (hafter : after = { before with phase := after.phase }) :
    after.Tracks next id := by
  have hsince : after.since = before.since := by rw [hafter]
  have hworkId : after.workId = before.workId := by rw [hafter]
  have hexpects := htracks.expects
  constructor
  · rw [hsince, hworkId]
    exact htracks.sees.of_history_eq hhistory
  · rw [hhistory, hworkId]
    generalize after.phase = phase at hphase
    cases move with
    | enter =>
        cases hclaimed : before.phase with
        | claimed =>
            -- the guard of `run_session_turn`
            rw [hclaimed] at hphase
            obtain rfl := Option.some.inj hphase
            split
            · next hbusy =>
                left
                apply hskipped
                obtain ⟨process, workId, phase, since⟩ := before
                cases hclaimed
                simp only [World.skipped, hbefore, hbusy]
                rfl
            · trivial
        | _ =>
            rw [hclaimed] at hphase
            cases hphase
    | execute result =>
        cases hloaded : before.phase with
        | loaded turn =>
            rw [hloaded] at hphase hexpects
            obtain rfl := Option.some.inj hphase
            exact hexpects
        | _ =>
            rw [hloaded] at hphase
            cases hphase
    | leave =>
        cases hreturned : before.phase with
        | returned =>
            rw [hreturned] at hphase hexpects
            obtain rfl := Option.some.inj hphase
            exact hexpects
        | escaped exc =>
            rw [hreturned] at hphase
            obtain rfl := Option.some.inj hphase
            trivial
        | _ =>
            rw [hreturned] at hphase
            cases hphase
    | raise exc | escape exc =>
        cases hraised : before.phase
        all_goals rw [hraised] at hphase
        all_goals cases hphase
        all_goals trivial

/-- A start that commits nothing was refused. -/
theorem startTurn_refused
    {py : Python} {start : Tx} (hnone : startTurn py start = none) :
    refusesStart start.session = true := by
  unfold startTurn at hnone
  unfold refusesStart
  split at hnone
  · next hdeleted => simp [hdeleted]
  · split at hnone
    · next hcannot => simp [hcannot]
    · cases hnone

/-- Where the turn goes on without a commit, the phase keeps its word, if the
start was not refused with the input unanswered. -/
theorem TurnTransaction.reply_stay_expects
    {py : Python} {kind : TurnTransaction} {before phase : Phase} {start : Tx}
    {history : List Commit} {id : ExecutionId} {workId : String}
    (hreply : kind.reply py before start = some (.stay phase))
    (hexpects : before.Expects history id workId)
    (hrefused : before = .entered → refusesStart start.session = true →
      Answered history workId) :
    phase.Expects history id workId := by
  cases kind <;> cases before
  all_goals simp only [TurnTransaction.reply, reduceCtorEq] at hreply
  all_goals split at hreply
  all_goals cases hreply
  · next hnone => exact Or.inl (hrefused rfl (startTurn_refused hnone))
  · trivial
  · exact Or.inl hexpects
  · trivial
  · trivial

theorem TurnTransaction.reply_collided_expects
    {py : Python} {kind : TurnTransaction} {before committed collided : Phase}
    {start tx : Tx} {history : List Commit} {id : ExecutionId} {workId : String}
    (hreply : kind.reply py before start = some (.commit tx committed collided)) :
    collided.Expects history id workId := by
  cases kind <;> cases before
  all_goals simp only [TurnTransaction.reply, reduceCtorEq] at hreply
  all_goals split at hreply
  all_goals cases hreply
  all_goals trivial

/-- What the phase after a commit says of the item holds with that commit. -/
theorem TurnTransaction.reply_committed_expects
    {py : Python} {kind : TurnTransaction} {before committed collided : Phase}
    {start tx : Tx} {transaction : Transaction} {context : Context}
    {read db : Db} {history : List Commit} {id : ExecutionId} {workId : String}
    (hreply : kind.reply py before start = some (.commit tx committed collided))
    (htransaction : kind.transaction before = some transaction)
    (hexpects : before.Expects history id workId)
    (hread : workId ∈ read.workIds) (hrow : workId ∈ workIdsIn history) :
    committed.Expects
      ({ writer := .session (some id) transaction context, read := read, db := db } ::
        history) id workId := by
  cases kind <;> cases before
  all_goals simp only [TurnTransaction.reply, reduceCtorEq] at hreply
  all_goals split at hreply
  all_goals cases hreply
  all_goals cases htransaction
  · trivial
  · apply Answered.of_delivered
    exact ⟨_, List.mem_cons_self, rfl, hread⟩
  · exact Or.inl (Answered.cons hexpects hrow)
  · exact Or.inr ⟨_, List.mem_cons_self, rfl, rfl⟩

theorem Execution.Tracks.turn
    {py : Python} {world next : World} {label : Label} {id : ExecutionId}
    {before after : Execution} {kind : TurnTransaction} {age : ℕ}
    {context : Context} {read : Db} {transaction : Transaction}
    (htracks : before.Tracks world id)
    (hskipped : NoSkippedInput world (.turn id kind age context))
    (hreading : world.reading id age = some (before, read))
    (htransaction : kind.transaction before.phase = some transaction)
    (hturn : TurnStep py world id kind age context before read transaction next)
    (hstep : ManagedAgents.step py world label = some next)
    (hafter : next.executions id = some after) :
    after.Tracks next id := by
  have hsnapshot := (World.reading_eq_some.mp hreading).2
  have hage : age + before.since ≤ world.history.length :=
    (World.snapshot_eq_some.mp hsnapshot).1
  have hread : before.workId ∈ read.workIds := htracks.sees.reads age read hsnapshot
  have hsees := htracks.sees.step hstep
  cases hturn with
  | stay phase hreply =>
      rw [World.executions_advance, if_pos rfl] at hafter
      cases hafter
      constructor
      · apply hsees.later
        · change before.since ≤ world.history.length - age
          omega
        · exact Nat.sub_le _ _
      · refine TurnTransaction.reply_stay_expects hreply htracks.expects ?_
        intro hentered hrefused
        apply hskipped
        have hstart : kind = .start := by
          rw [hentered] at htransaction
          cases kind <;> first | rfl | cases htransaction
        obtain ⟨process, workId, phase, since⟩ := before
        cases hentered
        subst hstart
        simp only [World.skipped, hreading]
        exact if_pos hrefused
  | collided tx committed collided hreply =>
      rw [World.executions_advance, if_pos rfl] at hafter
      cases hafter
      constructor
      · apply hsees.later
        · change before.since ≤ world.history.length
          omega
        · exact le_rfl
      · exact TurnTransaction.reply_collided_expects hreply
  | committed tx db committed collided hreply hbody hcommit =>
      rw [World.executions_advance, if_pos rfl] at hafter
      cases hafter
      constructor
      · apply hsees.later
        · change before.since ≤ world.history.length + 1
          omega
        · exact le_rfl
      · exact TurnTransaction.reply_committed_expects hreply htransaction
          htracks.expects hread htracks.sees.row

/-! ## Whole runs -/

structure TracksInputs (world : World) : Prop where
  delivered : InputsDelivered world
  executions : ∀ id execution, world.executions id = some execution →
    execution.Tracks world id
  rows : ∀ commit ∈ world.history, commit.db.workIds ⊆ world.db.workIds

theorem step_delivered
    {py : Python} {world next : World} {label : Label}
    (hworld : TracksInputs world) (hskipped : NoSkippedInput world label)
    (hstep : step py world label = some next) : InputsDelivered next := by
  intro row hrow hcompleted
  have hbefore : Answered world.history row.id ∧ row.id ∈ world.db.workIds := by
    rcases step_completed hstep hrow hcompleted with
      ⟨old, hold, hid, hcompletedBefore⟩ | ⟨hmem, hcompletes⟩
    · rw [← hid]
      exact ⟨hworld.delivered old hold hcompletedBefore, Db.mem_workIds hold⟩
    · obtain ⟨id, age, now, execution, read, hlabel, hreading, hphase, hworkId,
        hstatus⟩ := hcompletes
      refine ⟨?_, hmem⟩
      have hexecution := (World.reading_eq_some.mp hreading).1
      have hexpects := (hworld.executions id execution hexecution).expects
      rw [← hworkId]
      obtain ⟨process, workId, phase, since⟩ := execution
      cases phase with
      | finishing =>
          rcases hexpects with hanswered | hfailed
          · exact hanswered
          · subst hlabel
            apply hskipped
            simp only [World.skipped, hreading]
            exact if_pos ⟨hfailed, hstatus⟩
      | _ => cases hphase
  rcases step_grows hstep with hhistory | ⟨commit, hhistory, -⟩
  · rw [hhistory]
    exact hbefore.1
  · rw [hhistory]
    exact hbefore.1.cons hbefore.2

theorem step_tracksInputs
    {py : Python} {world next : World} {label : Label}
    (hworld : TracksInputs world) (hskipped : NoSkippedInput world label)
    (hstep : step py world label = some next) : TracksInputs next where
  delivered := step_delivered hworld hskipped hstep
  executions := by
    intro id after hafter
    cases step_execution hstep hafter with
    | same hbefore => exact (hworld.executions id after hbefore).step hstep
    | claimed read work hid hnext hphase hsince hread hrow hwork =>
        exact Execution.Tracks.claimed hworld.rows hstep hphase hsince hread hrow
          hwork
    | moved before move hlabel hbefore hphase hsame =>
        subst hlabel
        exact (hworld.executions id before hbefore).moved hskipped
          (moveStep_history hstep) hbefore hphase hsame
    | turn before kind age context read transaction hlabel hreading htransaction
        hturn =>
        have htracks := hworld.executions id before
          (World.reading_eq_some.mp hreading).1
        have hskippedTurn := hlabel ▸ hskipped
        exact htracks.turn hskippedTurn hreading htransaction hturn hstep hafter
  rows := by
    intro commit hcommit
    rcases step_grows hstep with hhistory | ⟨added, hhistory, hkept⟩
    · have hlast : next.last = world.last := (List.cons.inj hhistory).1
      rw [hhistory] at hcommit
      unfold World.db
      rw [hlast]
      exact hworld.rows commit hcommit
    · have hlast : next.last = added := (List.cons.inj hhistory).1
      rw [hhistory] at hcommit
      unfold World.db
      rw [hlast]
      rcases List.mem_cons.mp hcommit with rfl | hold
      · exact List.Subset.refl _
      · exact List.Subset.trans (hworld.rows commit hold) hkept

theorem World.start_tracksInputs
    {py : Python} {db : Db} (hcreated : Created py db) :
    TracksInputs (World.start db) where
  delivered := by
    intro work hwork
    change work ∈ db.work at hwork
    rw [hcreated.work_eq_nil] at hwork
    cases hwork
  executions := by
    intro id execution hexecution
    cases hexecution
  rows := by
    intro commit hcommit
    obtain rfl := List.mem_singleton.mp hcommit
    exact List.Subset.refl _

/-- In every run in which no turn with unanswered input is skipped, every
completed item of `send_events` is answered. -/
theorem run_delivered
    {py : Python} {db : Db} {labels : List Label} {world : World}
    (hcreated : Created py db)
    (hskipped : AllSteps (step py) NoSkippedInput (World.start db) labels)
    (hrun : run (step py) (World.start db) labels = some world) :
    InputsDelivered world := by
  have htracks : TracksInputs world :=
    run_invariant_of_allSteps
      (fun _ _ _ hbefore hlabel hstep => step_tracksInputs hbefore hlabel hstep)
      (World.start_tracksInputs hcreated) hskipped hrun
  exact htracks.delivered

/-! ## Started turns -/

/-- Past the guards, what the phase says is that the turn has started. -/
def Phase.Turned (history : List Commit) (id : ExecutionId) : Phase → Prop
  | .claimed | .entered | .escaped _ | .failing _ => True
  | _ => TurnStarted history id

def World.Turned (world : World) : Prop :=
  ∀ id execution, world.executions id = some execution →
    execution.phase.Turned world.history id

theorem TurnStarted.step
    {py : Python} {world next : World} {label : Label} {id : ExecutionId}
    (hstarted : TurnStarted world.history id)
    (hstep : ManagedAgents.step py world label = some next) :
    TurnStarted next.history id := by
  obtain ⟨start, hmem, hfacts⟩ := hstarted
  rcases step_grows hstep with hhistory | ⟨commit, hhistory, -⟩
  · exact ⟨start, hhistory ▸ hmem, hfacts⟩
  · exact ⟨start, hhistory ▸ List.mem_cons_of_mem _ hmem, hfacts⟩

theorem Phase.Turned.step
    {py : Python} {world next : World} {label : Label} {id : ExecutionId} {phase : Phase}
    (hturned : phase.Turned world.history id)
    (hstep : ManagedAgents.step py world label = some next) :
    phase.Turned next.history id := by
  cases phase with
  | claimed | entered | escaped exc | failing exc => trivial
  | _ => exact TurnStarted.step hturned hstep

theorem World.turned_moved
    {world : World} {id : ExecutionId} {move : Move} {before : Execution} {phase : Phase}
    (hearly : world.returnsEarly (.move id move) = false)
    (hbefore : world.executions id = some before)
    (hturned : before.phase.Turned world.history id)
    (hphase : move.phase (world.running before.process) before.phase = some phase) :
    phase.Turned world.history id := by
  obtain ⟨process, workId, before, since⟩ := before
  cases move with
  | enter =>
      cases before with
      | claimed =>
          have hidle : world.running process = false := by
            simpa only [World.returnsEarly, hbefore] using hearly
          cases hphase
          simp only [hidle, Bool.false_eq_true, if_false]
          trivial
      | _ => cases hphase
  | execute result | raise exc | escape exc | leave =>
      cases before <;> cases hphase <;> first | exact hturned | trivial

theorem TurnTransaction.turned_stay
    {py : Python} {kind : TurnTransaction} {before phase : Phase} {start : Tx}
    {history : List Commit} {id : ExecutionId}
    (hreply : kind.reply py before start = some (.stay phase))
    (hturned : before.Turned history id)
    (hstarts : before = .entered → refusesStart start.session = false) :
    phase.Turned history id := by
  cases kind <;> cases before
  all_goals simp only [TurnTransaction.reply, reduceCtorEq] at hreply
  all_goals split at hreply
  all_goals cases hreply
  · next hnone =>
      have hrefused := startTurn_refused hnone
      rw [hstarts rfl] at hrefused
      cases hrefused
  all_goals first
    | exact hturned
    | trivial

theorem TurnTransaction.turned_collided
    {py : Python} {kind : TurnTransaction} {before committed collided : Phase}
    {start tx : Tx} {history : List Commit} {id : ExecutionId}
    (hreply : kind.reply py before start = some (.commit tx committed collided))
    (hturned : before.Turned history id) : collided.Turned history id := by
  cases kind <;> cases before
  all_goals simp only [TurnTransaction.reply, reduceCtorEq] at hreply
  all_goals split at hreply
  all_goals cases hreply
  all_goals first
    | exact hturned
    | trivial

/-- The commit of the start is the one which is looked for. -/
theorem TurnTransaction.turned_committed
    {py : Python} {kind : TurnTransaction} {before committed collided : Phase}
    {start tx : Tx} {transaction : Transaction} {context : Context} {read db : Db}
    {history : List Commit} {id : ExecutionId}
    (hreply : kind.reply py before start = some (.commit tx committed collided))
    (htransaction : kind.transaction before = some transaction)
    (hturned : before.Turned history id) :
    committed.Turned
      ({ writer := .session (some id) transaction context, read := read, db := db } ::
        history) id := by
  have hgrow : TurnStarted history id → TurnStarted
      ({ writer := .session (some id) transaction context, read := read, db := db } ::
        history) id :=
    fun ⟨commit, hmem, hfacts⟩ => ⟨commit, List.mem_cons_of_mem _ hmem, hfacts⟩
  cases kind <;> cases before
  all_goals simp only [TurnTransaction.reply, reduceCtorEq] at hreply
  all_goals split at hreply
  all_goals cases hreply
  all_goals cases htransaction
  · exact ⟨_, List.mem_cons_self, rfl, rfl⟩
  all_goals exact hgrow hturned

theorem step_turned
    {py : Python} {world next : World} {label : Label} (hworld : world.Turned)
    (hearly : world.returnsEarly label = false)
    (hstep : step py world label = some next) : next.Turned := by
  intro id after hafter
  cases step_execution hstep hafter with
  | same hbefore => exact (hworld id after hbefore).step hstep
  | claimed read work hid hnext hphase =>
      rw [hphase]
      trivial
  | moved before move hlabel hbefore hphase hsame =>
      subst hlabel
      rw [moveStep_history hstep]
      exact World.turned_moved hearly hbefore (hworld id before hbefore) hphase
  | turn before kind age context read transaction hlabel hreading htransaction hturn =>
      subst hlabel
      have hturned := hworld id before (World.reading_eq_some.mp hreading).1
      cases hturn with
      | stay phase hreply =>
          rw [World.executions_advance, if_pos rfl] at hafter
          cases hafter
          refine TurnTransaction.turned_stay hreply hturned fun hentered => ?_
          have hstart : kind = .start := by
            rw [hentered] at htransaction
            cases kind <;> first | rfl | cases htransaction
          obtain ⟨process, workId, phase, since⟩ := before
          cases hentered
          subst hstart
          have hstarts : refusesStart read.session = false := by
            simpa only [World.returnsEarly, hreading] using hearly
          exact hstarts
      | collided tx committed collided hreply =>
          rw [World.executions_advance, if_pos rfl] at hafter
          cases hafter
          exact TurnTransaction.turned_collided hreply hturned
      | committed tx db committed collided hreply hbody hcommit =>
          rw [World.executions_advance, if_pos rfl] at hafter
          cases hafter
          exact TurnTransaction.turned_committed hreply htransaction hturned

theorem World.Turned.completesTurn
    {py : Python} {world : World} (hworld : world.Turned) (label : Label) :
    CompletesTurn py world label := by
  intro next hstep row hrow hcompleted
  rcases step_completed hstep hrow hcompleted with hbefore | ⟨-, hcompletes⟩
  · exact Or.inl hbefore
  · obtain ⟨id, age, now, execution, read, hlabel, hreading, hphase, hworkId, -⟩ :=
      hcompletes
    have hexecution := (World.reading_eq_some.mp hreading).1
    have hturned := hworld id execution hexecution
    refine Or.inr ⟨id, age, now, execution, hlabel, hexecution, hworkId, ?_⟩
    cases hfinishing : execution.phase with
    | finishing =>
        rw [hfinishing] at hturned
        exact hturned
    | _ =>
        rw [hfinishing] at hphase
        exact hphase.elim

/-- In every run in which no turn returns early and none that has failed is taken for
a finished one, every completed item of `send_events` is answered, and no item is
completed but by an execution whose turn has started. -/
theorem no_input_dropped
    {py : Python} {db : Db} {labels : List Label} {world : World}
    (hcreated : Created py db)
    (hskipped : AllSteps (step py) NoSkippedTurn (World.start db) labels)
    (hrun : run (step py) (World.start db) labels = some world) :
    InputsDelivered world ∧
      AllSteps (step py) (CompletesTurn py) (World.start db) labels := by
  have hstart : (World.start db).Turned := by
    intro id execution hexecution
    cases hexecution
  have hturned := hskipped.and_invariant
    (fun _ _ _ hworld hlabel hstep => step_turned hworld hlabel.1 hstep) hstart
  exact ⟨run_delivered hcreated (hskipped.mono fun _ _ hlabel => hlabel.2) hrun,
    hturned.mono fun _ label hlabel => hlabel.2.completesTurn label⟩

/-! ## A delivered item and a dropped one -/

def completedWorld : World :=
  (run (step samplePython) (World.start sampleDb) completedTurn).get (by decide)

theorem completed_turn_answered :
    InputsDelivered completedWorld ∧
      AllSteps (step samplePython) (CompletesTurn samplePython) (World.start sampleDb)
        completedTurn :=
  no_input_dropped sampleDb_created (by decide) (Option.some_get _).symm

/-- The first turn is interrupted during its model call; the item of the next
message is picked up by the same process while that call still runs. -/
def skippedTurn : List Label :=
  sampleTurn ++
    [sampleSend [{ type := "user.interrupt" }] 0 "e",
     sampleSend [sampleMessage] 0 "f",
     .claim 0 0 0,
     .move 1 .enter,
     .finish 1 0 0]

def itemsAnswered (world : World) : List (WorkStatus × Bool) :=
  world.db.work.map fun work =>
    (work.status, decide (Answered world.history work.id))

/-- Not every completed item is answered: here the second item is completed
although no turn has loaded its message. -/
theorem skipped_turn_drops_input :
    ∃ world,
      run (step samplePython) (World.start sampleDb) skippedTurn = some world ∧
        ¬ InputsDelivered world := by
  have hfacts :
      (run (step samplePython) (World.start sampleDb) skippedTurn).map
          itemsAnswered =
        some [(.running, true), (.completed, false)] := by
    decide
  obtain ⟨world, hrun, hitems⟩ := Option.map_eq_some_iff.mp hfacts
  refine ⟨world, hrun, ?_⟩
  intro hdelivered
  have hdropped : (WorkStatus.completed, false) ∈ itemsAnswered world := by
    rw [hitems]
    simp
  obtain ⟨work, hwork, heq⟩ := List.mem_map.mp hdropped
  obtain ⟨hcompleted, hunanswered⟩ := Prod.mk.inj heq
  have hanswered := hdelivered work hwork hcompleted
  exact of_decide_eq_false hunanswered hanswered

end ManagedAgents
