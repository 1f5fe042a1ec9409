import ManagedAgents.ActionBatches
import ManagedAgents.Library.LabelledRuns

/-!
# The protocol of required actions

A session waits for a set of actions.  Sequences of batches answer them: each
action once, in any grouping, until the batch that answers the last one
submits the actions and enqueues one work item.  The program keeps to this
exactly as long as the rows it has to look at are among the first ones of the
log.
-/

namespace ManagedAgents

open LabelledRuns PendingKeys SequencedLog

/-! ## What the protocol asks -/

instance (db : Db) (batch : ActionBatch) : Decidable (FreshIds db batch) :=
  decidable_of_iff
    (((List.range batch.inputs.length).map batch.context.uuid).Nodup ∧
      (∀ index < batch.inputs.length, ∀ event ∈ db.events,
        event.id ≠ "evt" ++ "_" ++ batch.context.uuid index) ∧
      ∀ item ∈ db.work,
        item.id ≠ "work" ++ "_" ++ batch.context.uuid batch.inputs.length)
    ⟨fun h => ⟨h.1, h.2.1, h.2.2⟩, fun h => ⟨h.distinct, h.events, h.work⟩⟩

/-- The batch may be accepted, judged on a log. -/
structure Acceptable (py : Python) (pendingIds : List String) (db : Db)
    (log : List SessionEvent) (batch : ActionBatch) : Prop where
  waits : isWaitingForAction db.session.stopReason = true
  unarchived : db.session.archivedAt = none
  environment : Environment.live batch.environment = true
  shape : validateSystemMessageBatch batch.types = .ok ()
  results : AcceptableResults py (unanswered py pendingIds log) log batch.results

/-- The session has waited for these actions since it asked for them: it still
does while one is unanswered, and has submitted them otherwise. -/
structure InProtocol (py : Python) (pendingIds : List String) (db : Db) : Prop where
  wellFormed : WellFormed db
  idle : db.session.status = .idle
  live : db.session.deletedAt = none
  waits : unanswered py pendingIds db.events ≠ ∅ →
    db.session.stopReason = some (.requiresAction pendingIds)
  submitted : unanswered py pendingIds db.events = ∅ →
    db.session.stopReason = some .actionSubmitted

/-- The database after the request, accepted or not. -/
def afterBatch (py : Python) (db : Db) (batch : ActionBatch) : Db :=
  (sendBatch py db batch).getD db

def batchStep (py : Python) (db : Db) (batch : ActionBatch) : Option Db :=
  some (afterBatch py db batch)

/-- What the protocol asks of one batch, judged on the whole log. -/
structure KeepsProtocol (py : Python) (pendingIds : List String) (db : Db)
    (batch : ActionBatch) : Prop where
  accepted : (sendBatch py db batch).isSome = true ↔
    Acceptable py pendingIds db db.events batch
  rejected : ¬ Acceptable py pendingIds db db.events batch →
    afterBatch py db batch = db
  recorded : Acceptable py pendingIds db db.events batch →
    db.events <+: (afterBatch py db batch).events ∧
      resolvedActionIds py (afterBatch py db batch).events =
        resolvedActionIds py db.events ++ batch.targets py
  session : InProtocol py pendingIds (afterBatch py db batch)
  waits : unanswered py pendingIds (afterBatch py db batch).events ≠ ∅ →
    (afterBatch py db batch).work = db.work
  resumed : unanswered py pendingIds db.events ≠ ∅ →
    unanswered py pendingIds (afterBatch py db batch).events = ∅ →
      ∃ item, (afterBatch py db batch).work = db.work ++ [item]

/-- The first rows of the log show what the batch depends on: the events which
an acceptable batch answers; an earlier answer to one of its targets, if
nothing else speaks against the batch; and its own answers, if they are the
last. -/
structure FirstRowsSuffice (py : Python) (pendingIds : List String) (db : Db)
    (batch : ActionBatch) : Prop where
  blockers : Acceptable py pendingIds db db.events batch →
    ∀ target ∈ batch.targets py, ∃ blocker ∈ actionPage db.events,
      blocker.id = target
  answers : Acceptable py pendingIds db (actionPage db.events) batch →
    ∀ target ∈ batch.targets py, target ∉ resolvedActionIds py db.events
  fits : Acceptable py pendingIds db db.events batch →
    settle (unanswered py pendingIds db.events) (batch.targets py) = ∅ →
      db.events.length + batch.results.length ≤ ACTION_HISTORY_LIMIT

/-! ## One batch -/

section

variable {py : Python} {pendingIds : List String} {db : Db} {batch : ActionBatch}

theorem InProtocol.waiting_iff (hprotocol : InProtocol py pendingIds db) :
    isWaitingForAction db.session.stopReason = true ↔
      unanswered py pendingIds db.events ≠ ∅ := by
  constructor
  · intro hwaiting hall
    rw [hprotocol.submitted hall] at hwaiting
    cases hwaiting
  · intro hopen
    rw [hprotocol.waits hopen]
    exact isWaitingForAction_requiresAction pendingIds

theorem InProtocol.control (hprotocol : InProtocol py pendingIds db)
    (hopen : unanswered py pendingIds db.events ≠ ∅) :
    db.session.control = ⟨.idle, some (.requiresAction pendingIds), none⟩ := by
  unfold ManagedSession.control
  rw [hprotocol.idle, hprotocol.live, hprotocol.waits hopen]

/-- The program accepts what is acceptable on the first rows. -/
theorem InProtocol.sendBatch_cases
    (hprotocol : InProtocol py pendingIds db) (hfresh : FreshIds db batch) :
    sendBatch py db batch = none ∧
        ¬ Acceptable py pendingIds db (actionPage db.events) batch ∨
      Acceptable py pendingIds db (actionPage db.events) batch ∧
        ∃ answers next, sendBatch py db batch = some next ∧
          Recorded py pendingIds db batch answers next := by
  have hrefused : ∀ {error}, sendEvents py batch.environment batch.inputs
      (Tx.begin db batch.context) = .error error → sendBatch py db batch = none := by
    intro error herror
    unfold sendBatch
    rw [herror]
    rfl
  have hvalid_iff : isWaitingForAction db.session.stopReason = true →
      (validateBatchForState py (Tx.begin db batch.context) batch.inputs = .ok () ↔
        AcceptableResults py (unanswered py pendingIds (actionPage db.events))
          (actionPage db.events) batch.results) := by
    intro hwaiting
    have hevents : (Tx.begin db batch.context).events = db.events := by
      simp [Tx.events]
    have hstate := @ActionBatch.validateBatchForState_iff py
      (Tx.begin db batch.context) pendingIds batch hprotocol.idle
      (hprotocol.waits (hprotocol.waiting_iff.mp hwaiting))
      (by rw [hevents]; exact hprotocol.wellFormed.gapFree)
      (by rw [hevents]; exact hprotocol.wellFormed.ids)
    rw [hevents] at hstate
    exact hstate
  by_cases haccept : Acceptable py pendingIds db (actionPage db.events) batch
  · right
    have hopen := hprotocol.waiting_iff.mp haccept.waits
    have hne : pendingIds ≠ [] := by
      rintro rfl
      exact hopen (by simp [unanswered, settle])
    refine ⟨haccept, ?_⟩
    apply batch.recorded hfresh hprotocol.wellFormed (hprotocol.control hopen) hne
      haccept.unarchived haccept.environment
    apply batch.validateEventBatch_iff.mpr
    exact ⟨haccept.shape, (hvalid_iff haccept.waits).mpr haccept.results⟩
  · left
    refine ⟨?_, haccept⟩
    cases hsend : sendEvents py batch.environment batch.inputs
        (Tx.begin db batch.context) with
    | error error => exact hrefused hsend
    | ok tx =>
        exfalso
        obtain ⟨⟨-, harchived, -, henvironment⟩, hvalid, -⟩ :=
          sendEvents_ok_iff.mp hsend
        obtain ⟨hshape, hstate⟩ := batch.validateEventBatch_iff.mp hvalid
        have hwaiting : isWaitingForAction db.session.stopReason = true := by
          by_contra hnot
          exact batch.refused (by simpa using hnot) hstate
        exact haccept ⟨hwaiting, harchived, henvironment, hshape,
          (hvalid_iff hwaiting).mp hstate⟩

theorem Recorded.resolvedActionIds
    {answers : List SessionEvent} {next : Db}
    (hrecorded : Recorded py pendingIds db batch answers next) :
    ManagedAgents.resolvedActionIds py answers = batch.targets py ∧
      ManagedAgents.resolvedActionIds py next.events =
        ManagedAgents.resolvedActionIds py db.events ++ batch.targets py := by
  have hanswers : ManagedAgents.resolvedActionIds py answers = batch.targets py := by
    have hsame := congrArg (List.filterMap id) hrecorded.targets
    rw [List.filterMap_map, List.filterMap_map] at hsame
    exact hsame
  refine ⟨hanswers, ?_⟩
  obtain ⟨messages, hevents, hmessages⟩ := hrecorded.events
  rw [hevents, resolvedActionIds_append, resolvedActionIds_append, hmessages,
    List.append_nil, hanswers]

theorem Recorded.unanswered
    {answers : List SessionEvent} {next : Db}
    (hrecorded : Recorded py pendingIds db batch answers next) :
    ManagedAgents.unanswered py pendingIds next.events =
      settle (ManagedAgents.unanswered py pendingIds db.events) (batch.targets py) := by
  unfold ManagedAgents.unanswered
  rw [hrecorded.resolvedActionIds.2, settle_append]

/-- An answer past the first rows does not resolve its action: if the first
rows resolve all of them, the answers of the batch are among these rows. -/
theorem AcceptableResults.fits_of_resolved
    {events history answers : List SessionEvent} {results : List SessionEventInput}
    (haccept : AcceptableResults py (unanswered py pendingIds events) history results)
    (hne : results ≠ [])
    (htargets : answers.map (SessionEvent.target py) =
      results.map (SessionEventInput.target py))
    (hall : unanswered py pendingIds (actionPage (events ++ answers)) = ∅) :
    events.length + results.length ≤ ACTION_HISTORY_LIMIT := by
  by_contra hlong
  obtain ⟨front, last, hresults⟩ := (List.eq_nil_or_concat results).resolve_left hne
  rw [List.concat_eq_append] at hresults
  subst hresults
  obtain ⟨target, htarget, -⟩ := haccept.matched last
    (List.mem_append_right _ (List.mem_singleton.mpr rfl))
  rw [List.map_append, List.map_eq_append_iff] at htargets
  obtain ⟨shown, rest, rfl, hshown, hrest⟩ := htargets
  have hshownTargets : resolvedActionIds py shown = resultTargets py front := by
    have hsame := congrArg (List.filterMap id) hshown
    rw [List.filterMap_map, List.filterMap_map] at hsame
    exact hsame
  have hadmissible := haccept.admissible
  unfold resultTargets at hadmissible
  rw [List.filterMap_append, admissible_append_iff, List.filterMap_cons_some htarget]
    at hadmissible
  have hopen : target ∈ unanswered py pendingIds (events ++ shown) := by
    rw [unanswered_append, hshownTargets]
    exact hadmissible.2.pending target List.mem_cons_self
  have hextends : actionPage (events ++ (shown ++ rest)) <+: events ++ shown := by
    have hlength : shown.length = front.length := by
      simpa using congrArg List.length hshown
    rw [List.length_append, List.length_singleton] at hlong
    have hbound : ACTION_HISTORY_LIMIT ≤ (events ++ shown).length := by
      rw [List.length_append]
      omega
    unfold actionPage
    rw [← List.append_assoc, List.take_append_of_le_length hbound]
    exact List.take_prefix _ _
  have hmissing := unanswered_subset hextends hopen
  rw [hall] at hmissing
  exact Finset.notMem_empty target hmissing

theorem afterBatch_of_refused (hnone : sendBatch py db batch = none) :
    afterBatch py db batch = db := by
  unfold afterBatch
  rw [hnone]
  rfl

theorem afterBatch_of_sent {next : Db} (hsend : sendBatch py db batch = some next) :
    afterBatch py db batch = next := by
  unfold afterBatch
  rw [hsend]
  rfl

/-- Where the first rows fit the batch, they resolve all actions if the whole
log does. -/
theorem Recorded.resolved_iff
    {answers : List SessionEvent} {next : Db}
    (hrecorded : Recorded py pendingIds db batch answers next)
    (haccept : Acceptable py pendingIds db db.events batch)
    (hsuffices : FirstRowsSuffice py pendingIds db batch) :
    ManagedAgents.unanswered py pendingIds next.events = ∅ ↔
      ManagedAgents.unanswered py pendingIds (actionPage (db.events ++ answers)) = ∅ := by
  rw [hrecorded.unanswered]
  constructor
  · intro hlast
    have hfits := hsuffices.fits haccept hlast
    have hlength : answers.length = batch.results.length := by
      simpa using congrArg List.length hrecorded.targets
    have hwhole : actionPage (db.events ++ answers) = db.events ++ answers := by
      apply List.take_of_length_le
      rw [List.length_append, hlength]
      exact hfits
    rw [hwhole, unanswered_append, hrecorded.resolvedActionIds.1]
    exact hlast
  · intro hall
    rw [← hrecorded.resolvedActionIds.1, ← unanswered_append]
    apply Finset.subset_empty.mp
    rw [← hall]
    exact unanswered_subset (List.take_prefix _ _)

theorem InProtocol.firstRowsSuffice
    (hprotocol : InProtocol py pendingIds db) (hfresh : FreshIds db batch)
    (hkeeps : KeepsProtocol py pendingIds db batch) :
    FirstRowsSuffice py pendingIds db batch := by
  have hcases := hprotocol.sendBatch_cases hfresh
  constructor
  · intro haccept target htarget
    have hsome := hkeeps.accepted.mpr haccept
    rcases hcases with ⟨hnone, -⟩ | ⟨hpage, -⟩
    · rw [hnone] at hsome
      cases hsome
    · obtain ⟨input, -, -, blocker, hblocker, hid, -⟩ :=
        hpage.results.exists_input htarget
      exact ⟨blocker, hblocker, hid⟩
  · intro hpage target htarget hanswered
    rcases hcases with ⟨-, hnot⟩ | ⟨-, answers, next, hsend, -⟩
    · exact hnot hpage
    · have haccept := hkeeps.accepted.mp (by rw [hsend]; rfl)
      have hopen := haccept.results.admissible.pending target htarget
      exact (mem_settle.mp hopen).2 hanswered
  · intro haccept hlast
    have hsome := hkeeps.accepted.mpr haccept
    rcases hcases with ⟨hnone, -⟩ | ⟨-, answers, next, hsend, hrecorded⟩
    · rw [hnone] at hsome
      cases hsome
    · have hsubmitted := hkeeps.session.submitted
      rw [afterBatch_of_sent hsend, hrecorded.unanswered] at hsubmitted
      apply haccept.results.fits_of_resolved batch.nonempty hrecorded.targets
      by_contra hopen
      rw [(hrecorded.waits hopen).1] at hsubmitted
      cases hsubmitted hlast

theorem InProtocol.keepsProtocol_of_refused
    (hprotocol : InProtocol py pendingIds db) (hnone : sendBatch py db batch = none)
    (hrefused : ¬ Acceptable py pendingIds db db.events batch) :
    KeepsProtocol py pendingIds db batch := by
  have hafter := afterBatch_of_refused hnone
  constructor
  · rw [hnone]
    constructor
    · intro hsome
      cases hsome
    · intro haccept
      exact absurd haccept hrefused
  · intro _
    exact hafter
  · intro haccept
    exact absurd haccept hrefused
  · rw [hafter]
    exact hprotocol
  · intro _
    rw [hafter]
  · intro hopen hall
    rw [hafter] at hall
    exact absurd hall hopen

theorem Recorded.keepsProtocol
    {answers : List SessionEvent} {next : Db}
    (hrecorded : Recorded py pendingIds db batch answers next)
    (hsend : sendBatch py db batch = some next)
    (haccept : Acceptable py pendingIds db db.events batch)
    (hsuffices : FirstRowsSuffice py pendingIds db batch) :
    KeepsProtocol py pendingIds db batch := by
  have hafter := afterBatch_of_sent hsend
  have hresolved := hrecorded.resolved_iff haccept hsuffices
  constructor
  · rw [hsend]
    exact ⟨fun _ => haccept, fun _ => rfl⟩
  · intro hnot
    exact absurd haccept hnot
  · intro _
    rw [hafter]
    obtain ⟨messages, hevents, -⟩ := hrecorded.events
    refine ⟨?_, hrecorded.resolvedActionIds.2⟩
    rw [hevents, List.append_assoc]
    exact List.prefix_append _ _
  · rw [hafter]
    constructor
    · exact hrecorded.wellFormed
    · exact hrecorded.idle
    · exact hrecorded.live
    · intro hopen
      exact (hrecorded.waits (mt hresolved.mpr hopen)).1
    · intro hall
      exact (hrecorded.resumed (hresolved.mp hall)).1
  · intro hopen
    rw [hafter] at hopen ⊢
    exact (hrecorded.waits (mt hresolved.mpr hopen)).2
  · intro _ hall
    rw [hafter] at hall ⊢
    exact (hrecorded.resumed (hresolved.mp hall)).2

/-- A waiting session keeps to the protocol on a batch exactly if the first
rows of its log suffice for it. -/
theorem InProtocol.keepsProtocol_iff
    (hprotocol : InProtocol py pendingIds db) (hfresh : FreshIds db batch) :
    KeepsProtocol py pendingIds db batch ↔ FirstRowsSuffice py pendingIds db batch := by
  constructor
  · exact hprotocol.firstRowsSuffice hfresh
  · intro hsuffices
    rcases hprotocol.sendBatch_cases hfresh with
      ⟨hnone, hnot⟩ | ⟨hpage, answers, next, hsend, hrecorded⟩
    · apply hprotocol.keepsProtocol_of_refused hnone
      intro haccept
      apply hnot
      exact ⟨haccept.waits, haccept.unarchived, haccept.environment, haccept.shape,
        haccept.results.to_page hprotocol.wellFormed.ids (hsuffices.blockers haccept)⟩
    · apply hrecorded.keepsProtocol hsend _ hsuffices
      exact ⟨hpage.waits, hpage.unarchived, hpage.environment, hpage.shape,
        hpage.results.of_page (hsuffices.answers hpage)⟩

end

/-! ## Sequences of batches -/

/-- The session waits for the actions, and one of them is unanswered. -/
structure WaitsFor (py : Python) (pendingIds : List String) (db : Db) : Prop where
  wellFormed : WellFormed db
  control : db.session.control = ⟨.idle, some (.requiresAction pendingIds), none⟩
  pending : unanswered py pendingIds db.events ≠ ∅

theorem WaitsFor.inProtocol
    {py : Python} {pendingIds : List String} {db : Db}
    (hwaits : WaitsFor py pendingIds db) : InProtocol py pendingIds db where
  wellFormed := hwaits.wellFormed
  idle := congrArg Control.status hwaits.control
  live := congrArg Control.deletedAt hwaits.control
  waits := fun _ => congrArg Control.stopReason hwaits.control
  submitted := fun hall => absurd hall hwaits.pending

/-- The targets of the accepted batches, in their order. -/
def acceptedTargets (py : Python) : Db → List ActionBatch → List String
  | _, [] => []
  | db, batch :: rest =>
      (if (sendBatch py db batch).isSome then batch.targets py else []) ++
        acceptedTargets py (afterBatch py db batch) rest

/-- Every batch keeps to the protocol; so each pending action is accepted at
most once, and the whole sequence enqueues one work item if it answers all of
them and none otherwise. -/
structure AnsweredOnce (py : Python) (pendingIds : List String) (start : Db)
    (batches : List ActionBatch) : Prop where
  steps : AllSteps (batchStep py) (KeepsProtocol py pendingIds) start batches
  once : Admissible (unanswered py pendingIds start.events)
    (acceptedTargets py start batches)
  resumed : ∀ last, run (batchStep py) start batches = some last →
    unanswered py pendingIds last.events =
        settle (unanswered py pendingIds start.events)
          (acceptedTargets py start batches) ∧
      ∃ items, last.work = start.work ++ items ∧
        items.length = if unanswered py pendingIds last.events = ∅ then 1 else 0

section

variable {py : Python} {pendingIds : List String}

theorem KeepsProtocol.unanswered
    {db : Db} {batch : ActionBatch} (hkeeps : KeepsProtocol py pendingIds db batch) :
    Admissible (ManagedAgents.unanswered py pendingIds db.events)
        (if (sendBatch py db batch).isSome then batch.targets py else []) ∧
      ManagedAgents.unanswered py pendingIds (afterBatch py db batch).events =
        settle (ManagedAgents.unanswered py pendingIds db.events)
          (if (sendBatch py db batch).isSome then batch.targets py else []) := by
  by_cases haccept : Acceptable py pendingIds db db.events batch
  · rw [if_pos (hkeeps.accepted.mpr haccept)]
    refine ⟨haccept.results.admissible, ?_⟩
    unfold ManagedAgents.unanswered
    rw [(hkeeps.recorded haccept).2, settle_append]
  · rw [if_neg (mt hkeeps.accepted.mp haccept), hkeeps.rejected haccept, settle_nil]
    exact ⟨admissible_nil, rfl⟩

/-- Once all actions are answered, nothing more is enqueued. -/
theorem InProtocol.answered_work
    {start last : Db} {batches : List ActionBatch}
    (hprotocol : InProtocol py pendingIds start)
    (hall : unanswered py pendingIds start.events = ∅)
    (hsteps : AllSteps (batchStep py) (KeepsProtocol py pendingIds) start batches)
    (hrun : run (batchStep py) start batches = some last) :
    last = start := by
  induction batches generalizing start with
  | nil => simpa using hrun.symm
  | cons batch rest ih =>
      obtain ⟨next, hnext, hrest⟩ := run_cons_eq_some.mp hrun
      have hstep := hsteps.2 next hnext
      obtain rfl : afterBatch py start batch = next := by
        simpa [batchStep] using hnext
      have hrefused : ¬ Acceptable py pendingIds start start.events batch := by
        intro haccept
        exact hprotocol.waiting_iff.mp haccept.waits hall
      have hsame := hsteps.1.rejected hrefused
      rw [hsame] at hstep hrest
      exact ih hprotocol hall hstep hrest

/-- The accepted targets are distinct pending actions, and what they leave is
what is unanswered. -/
theorem acceptedTargets_admissible
    {start : Db} {batches : List ActionBatch}
    (hsteps : AllSteps (batchStep py) (KeepsProtocol py pendingIds) start batches) :
    Admissible (unanswered py pendingIds start.events)
        (acceptedTargets py start batches) ∧
      ∀ last, run (batchStep py) start batches = some last →
        unanswered py pendingIds last.events =
          settle (unanswered py pendingIds start.events)
            (acceptedTargets py start batches) := by
  induction batches generalizing start with
  | nil =>
      refine ⟨admissible_nil, ?_⟩
      intro last hrun
      obtain rfl : start = last := by simpa using hrun
      simp [acceptedTargets]
  | cons batch rest ih =>
      obtain ⟨hadmissible, hopen⟩ := hsteps.1.unanswered
      obtain ⟨honce, hlast⟩ := ih (hsteps.2 _ rfl)
      unfold acceptedTargets
      rw [admissible_append_iff, settle_append, ← hopen]
      refine ⟨⟨hadmissible, honce⟩, ?_⟩
      intro last hrun
      obtain ⟨next, hnext, hrest⟩ := run_cons_eq_some.mp hrun
      obtain rfl : afterBatch py start batch = next := by
        simpa [batchStep] using hnext
      exact hlast last hrest

/-- One work item is enqueued if all actions are answered, and none before. -/
theorem InProtocol.enqueued_once
    {start last : Db} {batches : List ActionBatch}
    (hprotocol : InProtocol py pendingIds start)
    (hpending : unanswered py pendingIds start.events ≠ ∅)
    (hsteps : AllSteps (batchStep py) (KeepsProtocol py pendingIds) start batches)
    (hrun : run (batchStep py) start batches = some last) :
    ∃ items, last.work = start.work ++ items ∧
      items.length = if unanswered py pendingIds last.events = ∅ then 1 else 0 := by
  induction batches generalizing start with
  | nil =>
      obtain rfl : start = last := by simpa using hrun
      refine ⟨[], by simp, ?_⟩
      rw [if_neg hpending]
      rfl
  | cons batch rest ih =>
      have hkeeps := hsteps.1
      have hrestSteps := hsteps.2 _ rfl
      obtain ⟨next, hnext, hrest⟩ := run_cons_eq_some.mp hrun
      obtain rfl : afterBatch py start batch = next := by
        simpa [batchStep] using hnext
      by_cases hall : unanswered py pendingIds (afterBatch py start batch).events = ∅
      · obtain ⟨item, hwork⟩ := hkeeps.resumed hpending hall
        have hlast := hkeeps.session.answered_work hall hrestSteps hrest
        refine ⟨[item], by rw [hlast, hwork], ?_⟩
        rw [hlast, if_pos hall]
        rfl
      · obtain ⟨items, hwork, hlength⟩ := ih hkeeps.session hall hrestSteps hrest
        exact ⟨items, by rw [hwork, hkeeps.waits hall], hlength⟩

end

/-- A waiting session keeps to the protocol over a sequence of batches exactly
if, at each of them, the first rows of the log suffice. -/
theorem pending_actions_answered_once_iff
    {py : Python} {pendingIds : List String} {start : Db}
    {batches : List ActionBatch}
    (hwaits : WaitsFor py pendingIds start)
    (hfresh : AllSteps (batchStep py) FreshIds start batches) :
    AnsweredOnce py pendingIds start batches ↔
      AllSteps (batchStep py) (FirstRowsSuffice py pendingIds) start batches := by
  have hsteps : AllSteps (batchStep py) (KeepsProtocol py pendingIds) start batches ↔
      AllSteps (batchStep py) (FirstRowsSuffice py pendingIds) start batches := by
    refine @allSteps_iff_of_invariant _ _ _ (InProtocol py pendingIds) FreshIds _ _
      ?_ ?_ start batches hwaits.inProtocol hfresh
    · intro db batch hprotocol hids
      exact hprotocol.keepsProtocol_iff hids
    · intro db batch next _ hkeeps hnext
      obtain rfl : afterBatch py db batch = next := by
        simpa [batchStep] using hnext
      exact hkeeps.session
  rw [← hsteps]
  constructor
  · exact AnsweredOnce.steps
  · intro hkeeps
    obtain ⟨honce, hopen⟩ := acceptedTargets_admissible hkeeps
    refine ⟨hkeeps, honce, ?_⟩
    intro last hrun
    exact ⟨hopen last hrun,
      hwaits.inProtocol.enqueued_once hwaits.pending hkeeps hrun⟩

/-- The first rows suffice as long as they hold the log and the answers. -/
theorem firstRowsSuffice_of_short
    {py : Python} {pendingIds : List String} {db : Db} {batch : ActionBatch}
    (hshort : db.events.length + batch.results.length ≤ ACTION_HISTORY_LIMIT) :
    FirstRowsSuffice py pendingIds db batch := by
  have hwhole : actionPage db.events = db.events := by
    apply List.take_of_length_le
    omega
  constructor
  · intro haccept target htarget
    obtain ⟨input, -, -, blocker, hblocker, hid, -⟩ :=
      haccept.results.exists_input htarget
    rw [hwhole]
    exact ⟨blocker, hblocker, hid⟩
  · intro haccept target htarget
    rw [hwhole] at haccept
    have hopen := haccept.results.admissible.pending target htarget
    exact (mem_settle.mp hopen).2
  · intro _ _
    exact hshort

/-! ## Two waiting sessions -/

def confirmation (id tag : String) : ActionBatch where
  inputs :=
    [{ type := "user.tool_confirmation"
       fields := [("tool_use_id", .str id), ("result", .str "allow")] }]
  environment := some { id := "env_1", config := .dict [] }
  context := sampleContext tag
  nonempty := by simp [actionResultInputs]
  areResults := by simp [actionResultInputs, ACTION_RESULT_EVENTS]

def messageRow (index : ℕ) : SessionEvent where
  id := "evt_" ++ String.ofList (List.replicate (index + 1) 'm')
  seq := index + 1
  type := "user.message"
  source := "user"
  payload := [("type", .str "user.message"), ("processed_at", .null)]
  createdAt := 0
  origin := .client

def toolUseRow (id : String) (seq : ℕ) : SessionEvent where
  id := id
  seq := seq
  type := "agent.tool_use"
  source := "agent"
  payload := [("type", .str "agent.tool_use")]
  createdAt := 0
  origin := .server

/-- After some messages, the session waits for two confirmations. -/
def waitingDb (count : ℕ) : Db where
  session :=
    { sampleDb.session with
      stopReason := some (.requiresAction ["evt_1", "evt_2"])
      lastEventSeq := count + 2 }
  events := (List.range count).map messageRow ++
    [toolUseRow "evt_1" (count + 1), toolUseRow "evt_2" (count + 2)]
  work := []

theorem messageRow_id_injective :
    Function.Injective fun index => (messageRow index).id := by
  intro first second hsame
  have hletters := congrArg String.length hsame
  simp only [messageRow, String.length_append, String.length_ofList,
    List.length_replicate] at hletters
  omega

theorem messageRow_id_ne
    {text : String} (hletter : text.toList.head? ≠ some 'm') (index : ℕ) :
    (messageRow index).id ≠ "evt" ++ "_" ++ text := by
  intro hsame
  have hletters := congrArg String.toList hsame
  simp [messageRow, List.replicate_succ] at hletters
  apply hletter
  rw [← hletters]
  rfl

theorem waitingDb_wellFormed (count : ℕ) : WellFormed (waitingDb count) where
  gapFree := by
    apply NumberedFrom.append
    · unfold NumberedFrom
      rw [List.map_map, List.length_map, List.length_range, List.range'_eq_map_range]
      apply List.map_congr_left
      intro index _
      exact Nat.add_comm index 1
    · simp [NumberedFrom, toolUseRow, List.range'_succ]
  counter := by simp [waitingDb]
  ids := by
    unfold waitingDb
    rw [List.map_append, List.map_map]
    refine List.nodup_append.mpr
      ⟨List.nodup_range.map messageRow_id_injective, by simp [toolUseRow], ?_⟩
    rintro message hmessage tool htool rfl
    obtain ⟨index, -, rfl⟩ := List.mem_map.mp hmessage
    simp only [List.map_cons, List.map_nil, List.mem_cons, List.not_mem_nil,
      or_false] at htool
    rcases htool with htool | htool
    · exact @messageRow_id_ne "1" (by decide) index htool
    · exact @messageRow_id_ne "2" (by decide) index htool

theorem waitingDb_unanswered (count : ℕ) :
    unanswered samplePython ["evt_1", "evt_2"] (waitingDb count).events =
      {"evt_1", "evt_2"} := by
  have hnone : resolvedActionIds samplePython (waitingDb count).events = [] := by
    apply List.filterMap_eq_nil_iff.mpr
    intro event hevent
    rcases List.mem_append.mp hevent with hevent | hevent
    · obtain ⟨index, -, rfl⟩ := List.mem_map.mp hevent
      rfl
    · simp only [List.mem_cons, List.not_mem_nil, or_false] at hevent
      rcases hevent with rfl | rfl
      · rfl
      · rfl
  unfold unanswered
  rw [hnone, settle_nil]
  rfl

theorem waitingDb_waits (count : ℕ) :
    WaitsFor samplePython ["evt_1", "evt_2"] (waitingDb count) where
  wellFormed := waitingDb_wellFormed count
  control := rfl
  pending := by
    rw [waitingDb_unanswered]
    decide

/-- One action is confirmed, once more, and then the other: the second batch is
refused, and the third one resumes the session. -/
theorem two_actions_answered_once :
    AnsweredOnce samplePython ["evt_1", "evt_2"] (waitingDb 0)
      [confirmation "evt_1" "b", confirmation "evt_1" "c",
        confirmation "evt_2" "d"] := by
  apply (pending_actions_answered_once_iff (waitingDb_waits 0) ?_).mpr
  · have hshort : AllSteps (batchStep samplePython)
        (fun db batch =>
          db.events.length + batch.results.length ≤ ACTION_HISTORY_LIMIT)
        (waitingDb 0)
        [confirmation "evt_1" "b", confirmation "evt_1" "c",
          confirmation "evt_2" "d"] := by
      decide
    exact hshort.mono fun db batch hlength => firstRowsSuffice_of_short hlength
  · decide

theorem waitingDb_confirmation_fresh (count : ℕ) :
    FreshIds (waitingDb count) (confirmation "evt_1" "b") where
  distinct := by simp [confirmation]
  events := by
    intro index hindex event hevent
    obtain rfl : index = 0 := Nat.lt_one_iff.mp hindex
    rcases List.mem_append.mp hevent with hevent | hevent
    · obtain ⟨index, -, rfl⟩ := List.mem_map.mp hevent
      exact messageRow_id_ne (by decide) index
    · simp only [List.mem_cons, List.not_mem_nil, or_false] at hevent
      rcases hevent with rfl | rfl
      · exact of_decide_eq_true rfl
      · exact of_decide_eq_true rfl
  work := by simp [waitingDb]

theorem waitingDb_confirmation_acceptable (count : ℕ) :
    Acceptable samplePython ["evt_1", "evt_2"] (waitingDb count)
      (waitingDb count).events (confirmation "evt_1" "b") where
  waits := rfl
  unarchived := rfl
  environment := rfl
  shape := rfl
  results := by
    rw [waitingDb_unanswered]
    constructor
    · intro input hinput
      obtain rfl := List.mem_singleton.mp hinput
      refine ⟨"evt_1", rfl, toolUseRow "evt_1" (count + 1), ?_, rfl,
        .toolConfirmation, fun _ => Or.inr ⟨rfl, rfl⟩⟩
      exact List.mem_append_right _ List.mem_cons_self
    · decide

/-- A session with a long log does not keep to the protocol: it refuses an
answer to an action it waits for. -/
theorem late_action_not_answerable :
    WaitsFor samplePython ["evt_1", "evt_2"] (waitingDb 1000) ∧
      FreshIds (waitingDb 1000) (confirmation "evt_1" "b") ∧
      ¬ AnsweredOnce samplePython ["evt_1", "evt_2"] (waitingDb 1000)
        [confirmation "evt_1" "b"] := by
  refine ⟨waitingDb_waits 1000, waitingDb_confirmation_fresh 1000, ?_⟩
  intro hanswered
  have hsuffices := ((waitingDb_waits 1000).inProtocol.keepsProtocol_iff
    (waitingDb_confirmation_fresh 1000)).mp hanswered.steps.1
  obtain ⟨blocker, hblocker, hid⟩ := hsuffices.blockers
    (waitingDb_confirmation_acceptable 1000) "evt_1" List.mem_cons_self
  have hpage : actionPage (waitingDb 1000).events =
      (List.range 1000).map messageRow := by
    apply List.take_left'
    simp [ACTION_HISTORY_LIMIT]
  rw [hpage] at hblocker
  obtain ⟨index, -, rfl⟩ := List.mem_map.mp hblocker
  exact @messageRow_id_ne "1" (by decide) index hid

end ManagedAgents
