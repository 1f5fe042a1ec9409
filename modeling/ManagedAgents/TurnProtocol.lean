import ManagedAgents.ActionResults
import ManagedAgents.Library.Turns
import ManagedAgents.SystemRuns

/-!
# The protocol of turns

The committed states of a session follow the rules of a conversation in turns, in every
interleaving of requests, work items and turns.
-/

namespace ManagedAgents

open LabelledRuns SnapshotHistory Turns

/-! ## The abstract conversation -/

def Control.lifecycle (control : Control) : Turns.State String :=
  if control.deletedAt.isSome then .deleted
  else
    match control.status with
    | .idle =>
        if isWaitingForAction control.stopReason then
          .waiting (pendingActionIds control.stopReason)
        else .ready
    | .running => .running
    | .rescheduling => .retrying
    | .terminated => .closed

def ManagedSession.lifecycle (session : ManagedSession) : Turns.State String :=
  session.control.lifecycle

/-- What the transaction is for a conversation whose log is then the given one. -/
def Transaction.move (py : Python) (events : List SessionEvent) :
    Transaction → Turns.Move String
  | .request (.sendEvents _ inputs) =>
      if hasInterrupt inputs then .interrupt else .message (resolvedActionIds py events)
  | .request .cancelSession => .cancel
  | .request .deleteSession => .delete
  | .start => .start
  | .outcome _ _ => .conclude
  | .failure _ => .fail
  | _ => .other

def Commit.move (py : Python) (commit : Commit) : Turns.Move String :=
  match commit.transaction with
  | some transaction => transaction.move py commit.db.events
  | none => .other

def Commit.entry (py : Python) (commit : Commit) : Entry String :=
  (commit.move py, commit.db.session.lifecycle)

theorem lifecycle_eq_deleted
    (session : ManagedSession) :
    session.lifecycle = .deleted ↔ session.deletedAt ≠ none := by
  unfold ManagedSession.lifecycle Control.lifecycle ManagedSession.control
  cases session.deletedAt with
  | some time => simp
  | none =>
      cases session.status with
      | idle =>
          by_cases hwaiting : isWaitingForAction session.stopReason <;> simp [hwaiting]
      | _ => simp

theorem lifecycle_eq_running
    (session : ManagedSession) :
    session.lifecycle = .running ↔
      session.deletedAt = none ∧ session.status = .running := by
  unfold ManagedSession.lifecycle Control.lifecycle ManagedSession.control
  cases session.deletedAt with
  | some time => simp
  | none =>
      cases session.status with
      | idle =>
          by_cases hwaiting : isWaitingForAction session.stopReason <;> simp [hwaiting]
      | _ => simp

theorem lifecycle_eq_retrying
    (session : ManagedSession) :
    session.lifecycle = .retrying ↔
      session.deletedAt = none ∧ session.status = .rescheduling := by
  unfold ManagedSession.lifecycle Control.lifecycle ManagedSession.control
  cases session.deletedAt with
  | some time => simp
  | none =>
      cases session.status with
      | idle =>
          by_cases hwaiting : isWaitingForAction session.stopReason <;> simp [hwaiting]
      | _ => simp

theorem lifecycle_eq_closed
    (session : ManagedSession) :
    session.lifecycle = .closed ↔
      session.deletedAt = none ∧ session.status = .terminated := by
  unfold ManagedSession.lifecycle Control.lifecycle ManagedSession.control
  cases session.deletedAt with
  | some time => simp
  | none =>
      cases session.status with
      | idle =>
          by_cases hwaiting : isWaitingForAction session.stopReason <;> simp [hwaiting]
      | _ => simp

theorem lifecycle_of_idle
    {session : ManagedSession} (hdeletedAt : session.deletedAt = none)
    (hidle : session.status = .idle) :
    session.lifecycle =
      if isWaitingForAction session.stopReason then
        .waiting (pendingActionIds session.stopReason)
      else .ready := by
  simp [ManagedSession.lifecycle, Control.lifecycle, ManagedSession.control, hdeletedAt,
    hidle]

/-! ## Answers in the log -/

section

variable {py : Python}

theorem resolvedActionIds_listEvents
    (events : List SessionEvent) (afterSeq limit : ℕ) :
    resolvedActionIds py (listEvents events afterSeq limit) ⊆
      resolvedActionIds py events := by
  intro id hid
  obtain ⟨event, hevent, htarget⟩ := List.mem_filterMap.mp hid
  have hfiltered := (List.mem_insertionSort _).mp (List.mem_of_mem_take hevent)
  exact List.mem_filterMap.mpr ⟨event, List.mem_of_mem_filter hfiltered, htarget⟩

/-- The pending actions of the session are answered in the log. -/
def ActionsAnswered (py : Python) (tx : Tx) : Prop :=
  pendingActionIds tx.session.stopReason ⊆ resolvedActionIds py tx.events

theorem answered_of_resolved
    {tx : Tx}
    (hresolved : allPendingActionsResolved py tx = true) : ActionsAnswered py tx := by
  unfold allPendingActionsResolved at hresolved
  dsimp only at hresolved
  split at hresolved
  · cases hresolved
  · intro id hid
    have hanswered := List.all_eq_true.mp hresolved id hid
    exact resolvedActionIds_listEvents _ _ _ (of_decide_eq_true hanswered)

theorem ActionsAnswered.appends
    {before after : Tx} {added : List SessionEvent}
    (hanswered : ActionsAnswered py before)
    (happends : Appends before after added) : ActionsAnswered py after := by
  have hevents : after.events = before.events ++ added := by
    unfold Tx.events
    rw [happends.snapshot, happends.appended, List.append_assoc]
  have hreason : after.session.stopReason = before.session.stopReason := by
    rw [happends.session]
  unfold ActionsAnswered
  rw [hreason, hevents]
  exact List.Subset.trans hanswered
    (resolvedActionIds_subset (List.prefix_append _ _))

theorem sendLoop_answered
    {tx : Tx} {flags : SendFlags} {inputs : List SessionEventInput}
    (hflags : flags.resolvedRequiredActions = true → ActionsAnswered py tx)
    (hresolved : (sendLoop py tx flags inputs).2.resolvedRequiredActions = true) :
    ActionsAnswered py (sendLoop py tx flags inputs).1 := by
  induction inputs generalizing tx flags with
  | nil => exact hflags hresolved
  | cons input rest ih =>
      unfold sendLoop at hresolved ⊢
      refine ih ?_ hresolved
      have happends := appendEvent_appends py tx .client input.type input.payload
      intro hnext
      split at hnext
      · exact (hflags hnext).appends happends
      · split at hnext
        · exact (hflags hnext).appends happends
        · split at hnext
          · exact answered_of_resolved hnext
          · exact (hflags hnext).appends happends

/-- A request that takes the actions of a session as submitted has found all of them
answered. -/
theorem sendEvents_answered
    {snapshot : Db} {context : Context} {tx : Tx} {environment : Option Environment}
    {inputs : List SessionEventInput}
    (htx : sendEvents py environment inputs (Tx.begin snapshot context) = .ok tx)
    (hinterrupt : hasInterrupt inputs = false)
    (hwaiting : isWaitingForAction snapshot.session.stopReason = true)
    (hsubmitted : isWaitingForAction tx.session.stopReason = false) :
    pendingActionIds snapshot.session.stopReason ⊆
      resolvedActionIds py (snapshot.events ++ tx.appended) := by
  obtain ⟨-, -, rfl⟩ := sendEvents_ok_iff.mp htx
  obtain ⟨added, happends, -, -⟩ :=
    sendLoop_appends py (Tx.begin snapshot context) {} inputs
  have hflag := sendLoop_shouldInterrupt py (Tx.begin snapshot context) {} inputs
  rw [hinterrupt] at hflag
  have hanswered := @sendLoop_answered py (Tx.begin snapshot context) {} inputs (by simp)
  generalize sendLoop py (Tx.begin snapshot context) {} inputs = sent at *
  obtain ⟨sentTx, flags⟩ := sent
  dsimp only at *
  have hreason : sentTx.session.stopReason = snapshot.session.stopReason := by
    rw [happends.session]
    rfl
  have hevents : sentTx.events = snapshot.events ++ sentTx.appended := by
    unfold Tx.events
    rw [happends.snapshot]
    rfl
  have hinterrupts : flags.shouldInterrupt ≠ true := by simp [hflag]
  unfold settleSend at hsubmitted ⊢
  rw [if_neg hinterrupts] at hsubmitted ⊢
  by_cases hresolved : flags.resolvedRequiredActions = true
  · have hall := hanswered hresolved
    unfold ActionsAnswered at hall
    rw [hreason, hevents] at hall
    simp only [hresolved, if_true]
    split <;> exact hall
  · simp only [hresolved] at hsubmitted
    split at hsubmitted
    all_goals
      change isWaitingForAction sentTx.session.stopReason = false at hsubmitted
      rw [hreason, hwaiting] at hsubmitted
      cases hsubmitted

/-! ## Every transaction is a move -/

variable {before after : ManagedSession} {appended events : List SessionEvent}
  {transaction : Transaction}

theorem step_of_keepsControl
    (hkeeps : transaction.keepsControl) (state : Turns.State String) :
    Step state (transaction.move py events) state := by
  cases transaction with
  | request call =>
      cases call with
      | sendEvents environment inputs =>
          have hinterrupt : hasInterrupt inputs = false := hkeeps
          simp only [Transaction.move, hinterrupt]
          exact .message state _
      | cancelSession => exact absurd hkeeps id
      | deleteSession => exact absurd hkeeps id
      | _ => exact .other state
  | load rows => exact .other state
  | start => exact absurd hkeeps id
  | outcome history result => exact absurd hkeeps id
  | failure exc => exact absurd hkeeps id

/-- The deletion mark is set on a session at rest. -/
def AtRestIfDeleted (session : ManagedSession) : Prop :=
  session.deletedAt ≠ none → session.status ≠ .running

theorem Effect.lifecycle_step
    (heffect : Effect py before after appended transaction)
    (hrest : AtRestIfDeleted before)
    (hanswered : ∀ environment inputs,
      transaction = .request (.sendEvents environment inputs) →
      hasInterrupt inputs = false → isWaitingForAction before.stopReason = true →
      isWaitingForAction after.stopReason = false →
      pendingActionIds before.stopReason ⊆ resolvedActionIds py events) :
    Step before.lifecycle (transaction.move py events) after.lifecycle := by
  have hlive : before.deletedAt = none → before.lifecycle ≠ .deleted := by
    rw [Ne, lifecycle_eq_deleted]
    exact fun hnone hdeleted => hdeleted hnone
  have hafter : ∀ control, after.control = control →
      after.lifecycle = control.lifecycle := fun control hcontrol => by
    rw [← hcontrol]
    rfl
  cases heffect with
  | kept hkeeps hcontrol hevents =>
      rw [hafter _ hcontrol]
      exact step_of_keepsControl hkeeps _
  | interrupted hinterrupt hdeletedAt hopen hcontrol hannounces =>
      rw [hafter _ hcontrol]
      simp only [Transaction.move, hinterrupt, if_true]
      refine .interrupt ?_ (hlive hdeletedAt)
      rw [Ne, lifecycle_eq_closed]
      exact fun hclosed => hopen hclosed.2
  | actionSubmitted hinterrupt hdeletedAt hidle hwaiting hcontrol hevents =>
      have hreason : after.stopReason = some .actionSubmitted :=
        congrArg Control.stopReason hcontrol
      have hall := hanswered _ _ rfl hinterrupt hwaiting (by rw [hreason]; rfl)
      rw [hafter _ hcontrol, lifecycle_of_idle hdeletedAt hidle, hwaiting]
      simp only [Transaction.move, hinterrupt]
      exact .answer hall
  | deleted hdeletedAt hinactive hstatus hstopReason hmarked =>
      have hdeleted := (lifecycle_eq_deleted after).mpr (by
        intro hnone
        rw [hnone] at hmarked
        cases hmarked)
      have hactive := (blocksMutation_iff before.status).not.mp (by simp [hinactive])
      rw [hdeleted]
      refine .delete ?_ ?_ (hlive hdeletedAt)
      · rw [Ne, lifecycle_eq_running]
        exact fun hrunning => hactive (Or.inl hrunning.2)
      · rw [Ne, lifecycle_eq_retrying]
        exact fun hretrying => hactive (Or.inr hretrying.2)
  | cancelled hdeletedAt hcontrol hannounces =>
      rw [hafter _ hcontrol]
      exact .cancel (hlive hdeletedAt)
  | started hdeletedAt hcanStart hcontrol hannounces =>
      obtain ⟨hrunnable, hwaiting⟩ := (canStartWork_iff _ _).mp hcanStart
      rw [hafter _ hcontrol]
      refine .start ?_
      rcases hrunnable with hidle | hretrying
      · left
        rw [lifecycle_of_idle hdeletedAt hidle, hwaiting]
        rfl
      · exact Or.inr ((lifecycle_eq_retrying before).mpr ⟨hdeletedAt, hretrying⟩)
  | @concluded history result reason hrunning hwaiting hreason hcontrol hannounces =>
      have hdeletedAt : before.deletedAt = none := by
        by_contra hdeleted
        exact hrest hdeleted hrunning
      rw [hafter _ hcontrol, (lifecycle_eq_running before).mpr ⟨hdeletedAt, hrunning⟩,
        hdeletedAt]
      rcases hreason with rfl | ⟨-, blocked, rfl, -⟩
      · exact .conclude
      · exact .ask _
  | @rescheduled exc reason htransient hattempt hreason hcontrol hannounces =>
      rw [hafter _ hcontrol]
      cases hdeletedAt : before.deletedAt with
      | none => exact .retry (hlive hdeletedAt)
      | some time =>
          rw [(lifecycle_eq_deleted before).mpr (by simp [hdeletedAt])]
          exact .late
  | @failed exc reason hreason hcontrol hannounces =>
      rw [hafter _ hcontrol]
      cases hdeletedAt : before.deletedAt with
      | none => exact .fail (hlive hdeletedAt)
      | some time =>
          rw [(lifecycle_eq_deleted before).mpr (by simp [hdeletedAt])]
          exact .late

theorem Effect.atRest
    (heffect : Effect py before after appended transaction)
    (hrest : AtRestIfDeleted before) : AtRestIfDeleted after := by
  have hcolumns : ∀ control, after.control = control →
      after.status = control.status ∧ after.deletedAt = control.deletedAt :=
    fun control hcontrol => by
      rw [← hcontrol]
      exact ⟨rfl, rfl⟩
  unfold AtRestIfDeleted
  cases heffect with
  | kept hkeeps hcontrol hevents =>
      obtain ⟨hstatus, hdeleted⟩ := hcolumns _ hcontrol
      rw [hstatus, hdeleted]
      exact hrest
  | deleted hdeletedAt hinactive hstatus hstopReason hmarked => simp [hstatus]
  | started hdeletedAt hcanStart hcontrol hannounces => simp [(hcolumns _ hcontrol).2]
  | interrupted _ _ _ hcontrol _ | actionSubmitted _ _ _ _ hcontrol _
  | cancelled _ hcontrol _ | concluded _ _ _ hcontrol _
  | rescheduled _ _ _ hcontrol _ | failed _ hcontrol _ => simp [(hcolumns _ hcontrol).1]

end

/-! ## Every commit is a move -/

section

variable {py : Python}

theorem Committed.lifecycle_step
    {world : World} {attempt : Attempt} {tx : Tx} {db : Db}
    (hcommitted : Committed py world attempt tx db)
    (hrest : AtRestIfDeleted world.db.session) :
    Step world.db.session.lifecycle ((attempt.commit db).move py) db.session.lifecycle ∧
      AtRestIfDeleted db.session := by
  have hspec := hcommitted.spec
  have hcolumns : ∀ {session other : ManagedSession}, session.control = other.control →
      session.lifecycle = other.lifecycle ∧
        (AtRestIfDeleted session ↔ AtRestIfDeleted other) := by
    intro session other hcontrol
    have hstatus : session.status = other.status := congrArg Control.status hcontrol
    have hdeleted : session.deletedAt = other.deletedAt :=
      congrArg Control.deletedAt hcontrol
    refine ⟨congrArg Control.lifecycle hcontrol, ?_⟩
    unfold AtRestIfDeleted
    rw [hstatus, hdeleted]
  rcases hspec.control_cases with ⟨hkeeps, hcontrol, -⟩ | ⟨happended, hread, hwrote⟩
  · rw [(hcolumns hcontrol).1, (hcolumns hcontrol).2]
    exact ⟨step_of_keepsControl hkeeps _, hrest⟩
  · have hbefore := (hcolumns hread).2.mpr hrest
    rw [← (hcolumns hread).1, (hcolumns hwrote).1, (hcolumns hwrote).2]
    refine ⟨hspec.effect.lifecycle_step hbefore ?_, hspec.effect.atRest hbefore⟩
    intro environment inputs hrequest hinterrupt hwaiting hsubmitted
    have hbody := hcommitted.body
    rw [hrequest] at hbody
    have hsent := Except.toOption_eq_some.mp hbody
    rw [hcommitted.snapshot] at hwaiting ⊢
    have hanswered := sendEvents_answered hsent hinterrupt hwaiting hsubmitted
    rwa [← hcommitted.snapshot, hspec.readEvents happended, ← hspec.events,
      hcommitted.snapshot] at hanswered

/-- The trace of a history, its newest state and its oldest one. -/
structure InTurns (py : Python) (history : List Commit) : Prop where
  follows : Turns.Follows (history.map (Commit.entry py))
  atRest : ∀ commit ∈ history.head?, AtRestIfDeleted commit.db.session
  first : ∀ commit ∈ history.getLast?,
    commit.db.session.lifecycle = .ready ∧ commit.transaction = none

theorem run_inTurns
    {db : Db} {labels : List Label} {world : World} (hcreated : Created py db)
    (hrun : run (step py) (World.start db) labels = some world) :
    InTurns py world.history := by
  refine run_history ?_ ?_ ?_ hcreated (allSteps_true (World.start db) labels) hrun
  · intro created hcreated
    have hcontrol := hcreated.control
    have hready : created.session.lifecycle = .ready :=
      congrArg Control.lifecycle hcontrol
    have hdeleted : created.session.deletedAt = none :=
      congrArg Control.deletedAt hcontrol
    refine ⟨List.isChain_singleton _, ?_, ?_⟩
    · rintro commit ⟨⟩
      exact fun hne => absurd hdeleted hne
    · rintro commit ⟨⟩
      exact ⟨hready, rfl⟩
  · intro before label attempt tx next hbefore _ _ hcommitted
    obtain ⟨hstep, hrest⟩ :=
      hcommitted.lifecycle_step (hbefore.atRest before.last rfl)
    refine ⟨List.isChain_cons_cons.mpr ⟨hstep, hbefore.follows⟩, ?_, ?_⟩
    · rintro commit ⟨⟩
      exact hrest
    · exact fun commit hcommit => hbefore.first commit hcommit
  · intro before read next hbefore hsession hevents
    have hrest := hbefore.atRest before.last rfl
    refine ⟨List.isChain_cons_cons.mpr ⟨?_, hbefore.follows⟩, ?_, ?_⟩
    · change Step before.db.session.lifecycle .other next.session.lifecycle
      rw [hsession]
      exact .other _
    · rintro commit ⟨⟩
      rw [hsession]
      exact hrest
    · exact fun commit hcommit => hbefore.first commit hcommit

end

/-! ## Kinds of commits -/

/-- Events are sent, and none of them is an interrupt. -/
def Commit.isMessage (commit : Commit) : Bool :=
  match commit.writer.request? with
  | some (.sendEvents _ inputs) => !hasInterrupt inputs
  | _ => false

section

variable {py : Python} {commit : Commit}

/-- The kind of a commit is that of its move. -/
theorem Commit.move_cases :
    (commit.isStart = true ↔ commit.move py = .start) ∧
      (commit.isOutcome = true ↔ commit.move py = .conclude) ∧
      (commit.isFailure = true ↔ commit.move py = .fail) ∧
      (commit.isInterrupt = true ↔ commit.move py = .interrupt) ∧
      (commit.isMessage = true ↔
        commit.move py = .message (resolvedActionIds py commit.db.events)) ∧
      ∀ answered, commit.move py = .message answered →
        answered = resolvedActionIds py commit.db.events := by
  obtain ⟨writer, read, db⟩ := commit
  unfold Commit.isStart Commit.isOutcome Commit.isFailure Commit.isInterrupt
    Commit.isMessage Commit.move Commit.transaction Writer.request?
  cases writer with
  | created => simp
  | work => simp
  | session author transaction context =>
      cases transaction with
      | request call =>
          cases call with
          | sendEvents environment inputs =>
              by_cases hinterrupt : hasInterrupt inputs = true
              · simp [Transaction.move, hinterrupt]
              · simp [Transaction.move, hinterrupt, eq_comm]
          | _ => simp [Transaction.move]
      | _ => simp [Transaction.move]

end

/-! ## The protocol -/

/-- The later commit comes after the earlier one, with the listed ones in between. -/
def Spans (history : List Commit) (later : Commit) (between : List Commit)
    (earlier : Commit) : Prop :=
  ∃ newer older, history = newer ++ later :: (between ++ earlier :: older)

/-- What holds of the commits of a session. -/
structure TurnsKept (py : Python) (history : List Commit) : Prop where
  follows : Turns.Follows (history.map (Commit.entry py))
  deleted : ∀ later between earlier, Spans history later between earlier →
    earlier.db.session.deletedAt ≠ none → later.db.session.deletedAt ≠ none
  apart : ∀ later between earlier, Spans history later between earlier →
    earlier.isStart = true → later.isStart = true →
    ∃ commit ∈ between,
      commit.isOutcome = true ∨ commit.isInterrupt = true ∨ commit.isFailure = true
  answered : ∀ later between earlier eventIds, Spans history later between earlier →
    earlier.db.session.lifecycle = .waiting eventIds → later.isStart = true →
    ∃ commit ∈ between,
      (commit.isMessage = true ∧ eventIds ⊆ resolvedActionIds py commit.db.events) ∨
        commit.isInterrupt = true ∨ commit.isFailure = true
  reopened : ∀ later between earlier, Spans history later between earlier →
    earlier.db.session.lifecycle = .closed → later.isStart = true →
    ∃ commit ∈ between, commit.isFailure = true
  concluded : ∀ newer outcome older, history = newer ++ outcome :: older →
    outcome.isOutcome = true →
    ∃ since start rest, older = since ++ start :: rest ∧ start.isStart = true ∧
      ∀ commit ∈ since, (commit.move py).listens

section

variable {py : Python} {history : List Commit} {later earlier : Commit}
  {between : List Commit}

theorem Spans.mem
    (hspans : Spans history later between earlier) : earlier ∈ history := by
  obtain ⟨newer, older, rfl⟩ := hspans
  simp

theorem InTurns.spanned
    (hturns : InTurns py history) (hspans : Spans history later between earlier) :
    ∃ older : List (Entry String), Turns.Follows
      (later.entry py ::
        (between.map (Commit.entry py) ++ earlier.entry py :: older)) := by
  obtain ⟨newer, older, rfl⟩ := hspans
  have hfollows := hturns.follows
  rw [List.map_append, List.map_cons, List.map_append, List.map_cons] at hfollows
  exact ⟨_, List.IsChain.right_of_append hfollows⟩

/-- The first commit is that of no transaction. -/
theorem InTurns.exists_older
    {newer older : List Commit} {commit : Commit}
    (hturns : InTurns py (newer ++ commit :: older))
    (hcommit : commit.transaction ≠ none) :
    ∃ previous rest, older = previous :: rest := by
  cases older with
  | nil =>
      have hfirst := hturns.first commit (by simp)
      exact absurd hfirst.2 hcommit
  | cons previous rest => exact ⟨previous, rest, rfl⟩

theorem InTurns.step
    {newer older : List Commit} {commit : Commit}
    (hturns : InTurns py (newer ++ commit :: older))
    (hcommit : commit.transaction ≠ none) :
    ∃ previous rest, older = previous :: rest ∧
      Turns.Follows ((previous :: rest).map (Commit.entry py)) ∧
      Step previous.db.session.lifecycle (commit.move py)
        commit.db.session.lifecycle := by
  obtain ⟨previous, rest, rfl⟩ := hturns.exists_older hcommit
  have hfollows := hturns.follows
  rw [List.map_append] at hfollows
  obtain ⟨hstep, hrest⟩ :=
    List.isChain_cons_cons.mp (List.IsChain.right_of_append hfollows)
  exact ⟨previous, rest, rfl, hrest, hstep⟩

theorem transaction_ne_none
    {commit : Commit} (hcommit : commit.isStart = true ∨ commit.isOutcome = true) :
    commit.transaction ≠ none := by
  intro hnone
  simp [Commit.isStart, Commit.isOutcome, hnone] at hcommit

/-- A turn that has started runs. -/
theorem InTurns.running
    (hturns : InTurns py history) (hcommit : earlier ∈ history)
    (hstart : earlier.isStart = true) : earlier.db.session.lifecycle = .running := by
  obtain ⟨newer, older, rfl⟩ := List.append_of_mem hcommit
  obtain ⟨previous, rest, -, -, hstep⟩ :=
    hturns.step (transaction_ne_none (Or.inl hstart))
  rw [Commit.move_cases.1.mp hstart] at hstep
  exact hstep.starts

/-- A turn that is concluded has started, and since then only messages came in. -/
theorem InTurns.concluded
    {newer older : List Commit} {outcome : Commit}
    (hturns : InTurns py (newer ++ outcome :: older))
    (houtcome : outcome.isOutcome = true) :
    ∃ since start rest, older = since ++ start :: rest ∧ start.isStart = true ∧
      ∀ commit ∈ since, (commit.move py).listens := by
  obtain ⟨previous, rest, rfl, hfollows, hstep⟩ :=
    hturns.step (transaction_ne_none (Or.inr houtcome))
  rw [Commit.move_cases.2.1.mp houtcome] at hstep
  obtain ⟨first, hfirst⟩ : ∃ first, (previous :: rest).getLast? = some first :=
    ⟨_, List.getLast?_eq_some_getLast (List.cons_ne_nil _ _)⟩
  have hready := (hturns.first first (by simp [hfirst])).1
  have hlast : ((previous :: rest).map (Commit.entry py)).getLast? =
      some (first.entry py) := by
    rw [List.getLast?_map, hfirst]
    rfl
  rw [List.map_cons] at hfollows hlast
  obtain ⟨since, entry, older, hsplit, hstart, hsince⟩ :=
    hfollows.started hstep.of_conclude hlast (by simp [Commit.entry, hready])
  rw [← List.map_cons] at hsplit
  obtain ⟨front, back, hcommits, rfl, hback⟩ := List.map_eq_append_iff.mp hsplit
  obtain ⟨start, after, rfl, rfl, rfl⟩ := List.map_eq_cons_iff.mp hback
  refine ⟨front, start, after, hcommits, Commit.move_cases.1.mpr hstart, ?_⟩
  intro commit hcommit
  exact hsince _ (List.mem_map_of_mem hcommit)

theorem InTurns.turnsKept
    (hturns : InTurns py history) : TurnsKept py history where
  follows := hturns.follows
  deleted := by
    intro later between earlier hspans hdeleted
    obtain ⟨older, hfollows⟩ := hturns.spanned hspans
    exact (lifecycle_eq_deleted _).mp
      (hfollows.deleted ((lifecycle_eq_deleted _).mpr hdeleted))
  apart := by
    intro later between earlier hspans hearlier hlater
    obtain ⟨older, hfollows⟩ := hturns.spanned hspans
    obtain ⟨entry, hentry, hends⟩ := hfollows.turn_ended
      (hturns.running hspans.mem hearlier) (Commit.move_cases.1.mp hlater)
    obtain ⟨commit, hcommit, rfl⟩ := List.mem_map.mp hentry
    refine ⟨commit, hcommit, ?_⟩
    obtain ⟨-, houtcome, hfailure, hinterrupt, -⟩ := @Commit.move_cases py commit
    rwa [houtcome, hfailure, hinterrupt]
  answered := by
    intro later between earlier eventIds hspans hwaiting hlater
    obtain ⟨older, hfollows⟩ := hturns.spanned hspans
    obtain ⟨entry, hentry, hanswered⟩ := hfollows.answered hwaiting
      (Commit.move_cases.1.mp hlater)
    obtain ⟨commit, hcommit, rfl⟩ := List.mem_map.mp hentry
    refine ⟨commit, hcommit, ?_⟩
    obtain ⟨-, -, hfailure, hinterrupt, hmessage, hanswers⟩ :=
      @Commit.move_cases py commit
    rw [hfailure, hinterrupt]
    refine hanswered.imp_left ?_
    rintro ⟨answered, hmove, hsubset⟩
    obtain rfl := hanswers answered hmove
    exact ⟨hmessage.mpr hmove, hsubset⟩
  reopened := by
    intro later between earlier hspans hclosed hlater
    obtain ⟨older, hfollows⟩ := hturns.spanned hspans
    obtain ⟨entry, hentry, hfail⟩ :=
      hfollows.reopened hclosed (Commit.move_cases.1.mp hlater)
    obtain ⟨commit, hcommit, rfl⟩ := List.mem_map.mp hentry
    exact ⟨commit, hcommit, (@Commit.move_cases py commit).2.2.1.mpr hfail⟩
  concluded := by
    rintro newer outcome older rfl houtcome
    exact hturns.concluded houtcome

end

/-- In every run the commits of a session keep the protocol of turns. -/
theorem turn_protocol_kept
    {py : Python} {db : Db} {labels : List Label} {world : World}
    (hcreated : Created py db)
    (hrun : run (step py) (World.start db) labels = some world) :
    TurnsKept py world.history :=
  (run_inTurns hcreated hrun).turnsKept

theorem sample_turn_protocol : TurnsKept samplePython sampleTurnWorld.history :=
  turn_protocol_kept sampleDb_created sampleTurn_run

end ManagedAgents
