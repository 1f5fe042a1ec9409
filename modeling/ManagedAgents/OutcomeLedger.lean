import ManagedAgents.EffectiveTools
import ManagedAgents.LatestInput
import ManagedAgents.SerialDetails

/-!
# The ledger of outcome evaluations

A turn that ends evaluates the outcome which the user defined last, in an event
of the log and in an entry of the status details.  The entries are always backed
by events, in their order.  None is missing as long as no archive of the primary
thread writes over evaluations which it has not read.
-/

namespace ManagedAgents

open LabelledRuns SnapshotHistory

/-! ## Evaluations -/

def isEvaluationEvent (event : SessionEvent) : Bool :=
  event.type = "span.outcome_evaluation_end"

/-- The entry of the status details which belongs to an evaluation event. -/
def evaluationEntry (event : SessionEvent) : Json :=
  .dict
    [("outcome", Dict.get event.payload "outcome"),
     ("result", Dict.get event.payload "result"),
     ("grader_context", Dict.get event.payload "grader_context"),
     ("event_id", .str event.id)]

def Db.evaluations (db : Db) : List Json :=
  db.session.statusDetails.outcomeEvaluations

def loggedEvaluations (log : List SessionEvent) : List Json :=
  (log.filter isEvaluationEvent).map evaluationEntry

/-- The evaluation which the transaction records when it commits. -/
def Transaction.evaluation? (py : Python) : Transaction → Option Dict
  | .outcome history result =>
      if result.requiresAction then none
      else (outcomeEvaluationFromHistory py history result).toOption.join
  | _ => none

/-- The event in which the commit records an evaluation: the last before the
one that closes the turn. -/
def Commit.evaluationEvent? (py : Python) (commit : Commit) : Option SessionEvent :=
  (commit.transaction.bind fun transaction => transaction.evaluation? py).bind fun _ =>
    commit.db.events.dropLast.getLast?

/-- The entries of the evaluations which the commits record, oldest first. -/
def evaluatedOutcomes (py : Python) : List Commit → List Json
  | [] => []
  | commit :: older =>
      evaluatedOutcomes py older ++
        ((commit.evaluationEvent? py).map evaluationEntry).toList

/-- An archive of the primary thread that writes the details it read over other
evaluations. -/
def Commit.losesEvaluations (commit : Commit) (older : List Commit) : Prop :=
  match commit.writer with
  | .session _ transaction context =>
      transaction.archivesPrimary commit.read.session = true ∧
        commit.read.session.statusDetails.primaryThreadArchivedAt ≠ some context.now ∧
        ∃ last ∈ older.head?, last.db.evaluations ≠ commit.read.evaluations
  | _ => False

theorem loggedEvaluations_append (older newer : List SessionEvent) :
    loggedEvaluations (older ++ newer) =
      loggedEvaluations older ++ loggedEvaluations newer := by
  simp [loggedEvaluations]

/-- An entry names its event. -/
theorem evaluationEntry_injective
    {left right : SessionEvent} (hsame : evaluationEntry left = evaluationEntry right) :
    left.id = right.id := by
  unfold evaluationEntry at hsame
  simp only [Json.dict.injEq, List.cons.injEq, Prod.mk.injEq, Json.str.injEq, true_and,
    and_true] at hsame
  exact hsame.2.2.2

theorem loggedEvaluations_nodup
    {log : List SessionEvent} (hids : (log.map SessionEvent.id).Nodup) :
    (loggedEvaluations log).Nodup := by
  have hevents : (log.filter isEvaluationEvent).Nodup :=
    (List.Nodup.of_map _ hids).filter _
  refine List.Nodup.map_on ?_ hevents
  intro left hleft right hright hsame
  exact List.inj_on_of_nodup_map hids (List.mem_of_mem_filter hleft)
    (List.mem_of_mem_filter hright) (evaluationEntry_injective hsame)

/-! ## What a transaction records -/

/-- The part which a transaction plays for the evaluations. -/
inductive EvaluationEffect (py : Python) (start tx : Tx) (transaction : Transaction) :
    Prop
  | kept
      (hnone : transaction.evaluation? py = none)
      (hkept : tx.session.statusDetails.outcomeEvaluations =
        start.session.statusDetails.outcomeEvaluations)
  | recorded (evaluation : Dict) (added : List SessionEvent)
      (event closing : SessionEvent)
      (hsome : transaction.evaluation? py = some evaluation)
      (happended : tx.appended = start.appended ++ (added ++ [event, closing]))
      (htype : isEvaluationEvent event = true)
      (houtcome : Dict.get event.payload "outcome" = Dict.get evaluation "outcome")
      (hwritten : tx.session.statusDetails.outcomeEvaluations =
        start.session.statusDetails.outcomeEvaluations ++ [evaluationEntry event])

/-- The fields of an evaluation and the entry of the event which has them. -/
theorem outcomeEvaluationFromHistory_eq_some
    {py : Python} {history : List SessionEvent} {result : RuntimeResult}
    {evaluation : Dict}
    (hsome : outcomeEvaluationFromHistory py history result = .ok (some evaluation)) :
    ∃ defined outcome graded context,
      latestOutcomeEvent history = some defined ∧
        outcomeSpec py defined.payload = .ok outcome ∧
        evaluation = [("outcome", outcome.toJson), ("result", graded),
          ("grader_context", context)] := by
  unfold outcomeEvaluationFromHistory at hsome
  split at hsome
  · cases hsome
  next defined hdefined =>
  split at hsome
  · cases hsome
  next outcome houtcome =>
  cases hsome
  exact ⟨defined, outcome, _, _, hdefined, houtcome, rfl⟩

/-- The event which an outcome appends for the evaluation. -/
def Tx.evaluationEvent (py : Python) (tx : Tx) (evaluation : Dict) : SessionEvent :=
  tx.newEvent py .server "span.outcome_evaluation_end"
    (("type", .str "span.outcome_evaluation_end") :: evaluation)

theorem Tx.evaluationEvent_get
    {key : String} (py : Python) (tx : Tx) (evaluation : Dict) (htype : "type" ≠ key)
    (hprocessed : "processed_at" ≠ key) :
    Dict.get (tx.evaluationEvent py evaluation).payload key =
      Dict.get evaluation key := by
  refine (normalizePayload_get _ _ _ _ htype hprocessed).trans ?_
  simp [Dict.get, htype]

/-- The entry that is written is the one which belongs to the event. -/
theorem Tx.evaluationEntry_event
    (py : Python) (tx : Tx) (outcome graded context : Json) :
    evaluationEntry (tx.evaluationEvent py
        [("outcome", outcome), ("result", graded), ("grader_context", context)]) =
      .dict [("outcome", outcome), ("result", graded), ("grader_context", context),
        ("event_id", .str (tx.newId "evt"))] := by
  unfold evaluationEntry
  rw [tx.evaluationEvent_get py _ (by decide) (by decide),
    tx.evaluationEvent_get py _ (by decide) (by decide),
    tx.evaluationEvent_get py _ (by decide) (by decide)]
  rfl

theorem commitOutcome_evaluationEffect
    {py : Python} {history : List SessionEvent} {result : RuntimeResult} {start tx : Tx}
    (htx : commitOutcome py history result start = .commit tx) :
    EvaluationEffect py start tx (.outcome history result) := by
  unfold commitOutcome at htx
  split at htx
  · cases htx
  simp only at htx
  split at htx
  · cases htx
  next middle blockingIds hloop =>
  obtain ⟨added, blocked, happends, -⟩ := appendToolEvents_appends hloop
  have hmiddle := congrArg StatusDetails.outcomeEvaluations happends.statusDetails
  split at htx
  next hrequires =>
    cases htx
    exact EvaluationEffect.kept (by simp [Transaction.evaluation?, hrequires]) hmiddle
  next hfinal =>
  obtain ⟨texts, htexts⟩ := appendFinalText_appends py result middle
  have hkept := (congrArg StatusDetails.outcomeEvaluations htexts.statusDetails).trans
    hmiddle
  split at htx
  · cases htx
  next evaluation hevaluation =>
  cases htx
  have hread : Transaction.evaluation? py (.outcome history result) = evaluation := by
    simp [Transaction.evaluation?, hfinal, hevaluation, Except.toOption]
  cases evaluation with
  | none => exact EvaluationEffect.kept hread hkept
  | some evaluation =>
      obtain ⟨defined, outcome, graded, context, -, -, rfl⟩ :=
        outcomeEvaluationFromHistory_eq_some hevaluation
      refine @EvaluationEffect.recorded py start _ _ _ (added ++ texts)
        ((appendFinalText py result middle).evaluationEvent py
          [("outcome", outcome.toJson), ("result", graded), ("grader_context", context)])
        ?closing hread ?appended rfl ?outcome ?written
      case appended =>
        change ((appendFinalText py result middle).appended ++ [_]) ++ [_] = _
        rw [(happends.trans htexts).appended]
        simp only [List.append_assoc, List.singleton_append]
        rfl
      case outcome => exact Tx.evaluationEvent_get _ _ _ (by decide) (by decide)
      case written =>
        rw [Tx.evaluationEntry_event, ← hkept]
        rfl

theorem failTurn_evaluations
    {py : Python} {exc : PyException} {start tx : Tx}
    (htx : failTurn py exc start = .ok tx) :
    tx.session.statusDetails.outcomeEvaluations =
      start.session.statusDetails.outcomeEvaluations := by
  unfold failTurn at htx
  split at htx
  · cases htx
  · unfold markTransientRuntimeFailure at htx
    simp only at htx
    repeat' split at htx
    all_goals cases htx
    all_goals rfl
  · cases htx
    rfl

theorem Transaction.body_evaluationEffect
    {py : Python} {transaction : Transaction} {start tx : Tx}
    (hbody : transaction.body py start = some tx) :
    EvaluationEffect py start tx transaction := by
  by_cases hkeeps : transaction.keepsDetails
  · have hdetails := Transaction.body_statusDetails hkeeps hbody
    apply EvaluationEffect.kept
    · cases transaction with
      | outcome history result => exact hkeeps.elim
      | _ => rfl
    · rw [hdetails]
  · cases transaction with
    | outcome history result =>
        exact commitOutcome_evaluationEffect (TurnReply.commit?_eq_some.mp hbody)
    | failure exc =>
        exact EvaluationEffect.kept rfl
          (failTurn_evaluations (Except.toOption_eq_some.mp hbody))
    | request call =>
        have hok := Except.toOption_eq_some.mp hbody
        cases call with
        | updateSession response body =>
            obtain ⟨agent, hdetails⟩ := updateSessionRequest_agent hok
            exact EvaluationEffect.kept rfl (by rw [hdetails])
        | archiveSessionThread threadId threadExists =>
            have hdetails := archiveSessionThread_details hok
            exact EvaluationEffect.kept rfl (by rw [hdetails]; rfl)
        | _ => exact absurd trivial hkeeps
    | _ => exact absurd trivial hkeeps

/-! ## One commit -/

/-- What a commit makes of the evaluations of the current state. -/
inductive EvaluationsWritten (py : Python) (world : World) (attempt : Attempt)
    (db : Db) : Prop
  | kept
      (hnone : attempt.transaction.evaluation? py = none)
      (hkept : db.evaluations = world.db.evaluations)
      (harchives : attempt.transaction.archivesPrimary attempt.read.session = true →
        attempt.read.session.statusDetails.primaryThreadArchivedAt =
          some attempt.context.now)
  | overwritten
      (hnone : attempt.transaction.evaluation? py = none)
      (harchives : attempt.transaction.archivesPrimary attempt.read.session = true)
      (harchived : attempt.read.session.statusDetails.primaryThreadArchivedAt ≠
        some attempt.context.now)
      (hwritten : db.evaluations = attempt.read.evaluations)
  | carried
      (hnone : attempt.transaction.evaluation? py = none)
      (harchives : attempt.transaction.archivesPrimary attempt.read.session = false)
      (hread : attempt.read.events = world.db.events)
      (hwritten : db.evaluations = attempt.read.evaluations)
  | recorded (evaluation : Dict) (added : List SessionEvent)
      (event closing : SessionEvent)
      (hsome : attempt.transaction.evaluation? py = some evaluation)
      (hread : attempt.read.events = world.db.events)
      (hevents : db.events = world.db.events ++ (added ++ [event, closing]))
      (htype : isEvaluationEvent event = true)
      (houtcome : Dict.get event.payload "outcome" = Dict.get evaluation "outcome")
      (hwritten : db.evaluations = attempt.read.evaluations ++ [evaluationEntry event])

theorem Transaction.evaluation?_archivesPrimary
    {py : Python} {transaction : Transaction} {session : ManagedSession}
    {evaluation : Dict} (hsome : transaction.evaluation? py = some evaluation) :
    transaction.archivesPrimary session = false := by
  unfold Transaction.evaluation? at hsome
  split at hsome
  · rfl
  · cases hsome

/-- An archive of the primary thread writes the details that it read. -/
theorem Transaction.body_archivesPrimary
    {py : Python} {transaction : Transaction} {context : Context} {read : Db} {tx : Tx}
    (harchives : transaction.archivesPrimary read.session = true)
    (hbody : transaction.body py (Tx.begin read context) = some tx) :
    tx.session.statusDetails =
      read.session.statusDetails.withArchive (some context.now) := by
  unfold Transaction.archivesPrimary at harchives
  split at harchives
  next threadId threadExists =>
    simp only [Bool.and_eq_true, decide_eq_true_eq] at harchives
    have htx := Except.toOption_eq_some.mp hbody
    change archiveSessionThread threadId threadExists (Tx.begin read context) =
      .ok tx at htx
    rw [archiveSessionThread_details htx, Tx.begin_session, if_pos harchives.2]
    rfl
  next => cases harchives

section

variable {py : Python} {world : World} {attempt : Attempt} {tx : Tx} {db : Db}

/-- An evaluation is written, because it makes the details longer. -/
theorem Committed.recordedEvaluation
    (hcommitted : Committed py world attempt tx db) {evaluation : Dict}
    {added : List SessionEvent} {event closing : SessionEvent}
    (hsome : attempt.transaction.evaluation? py = some evaluation)
    (happended : tx.appended = added ++ [event, closing])
    (htype : isEvaluationEvent event = true)
    (houtcome : Dict.get event.payload "outcome" = Dict.get evaluation "outcome")
    (hwritten : tx.session.statusDetails.outcomeEvaluations =
      attempt.read.evaluations ++ [evaluationEntry event]) :
    EvaluationsWritten py world attempt db := by
  have hread := hcommitted.spec.readEvents (by simp [happended])
  rw [hcommitted.snapshot] at hread
  refine EvaluationsWritten.recorded evaluation added event closing hsome hread ?_ htype
    houtcome ?_
  · rw [hcommitted.spec.events, happended]
  · have hchanged : tx.session.statusDetails ≠ attempt.read.session.statusDetails := by
      intro hsame
      have hlength :=
        congrArg List.length (congrArg StatusDetails.outcomeEvaluations hsame)
      rw [hwritten] at hlength
      simp [Db.evaluations] at hlength
    unfold Db.evaluations
    rw [hcommitted.statusDetails, flushColumn, if_neg hchanged]
    exact hwritten

theorem Committed.evaluationsWritten
    (hcommitted : Committed py world attempt tx db) :
    EvaluationsWritten py world attempt db := by
  have hsame : tx.session.statusDetails = attempt.read.session.statusDetails →
      db.evaluations = world.db.evaluations := by
    intro hsame
    unfold Db.evaluations
    rw [hcommitted.statusDetails, hsame, flushColumn_same]
  cases Transaction.body_evaluationEffect hcommitted.body with
  | recorded evaluation added event closing hsome happended htype houtcome hwritten =>
      exact hcommitted.recordedEvaluation hsome happended htype houtcome hwritten
  | kept hnone hevaluations =>
      have hchanged : tx.session.statusDetails ≠ attempt.read.session.statusDetails →
          db.evaluations = attempt.read.evaluations := by
        intro hchanged
        unfold Db.evaluations
        rw [hcommitted.statusDetails, flushColumn, if_neg hchanged]
        exact hevaluations
      by_cases harchives : attempt.transaction.archivesPrimary attempt.read.session = true
      · have hwritten := Transaction.body_archivesPrimary harchives hcommitted.body
        by_cases hkey : attempt.read.session.statusDetails.primaryThreadArchivedAt =
            some attempt.context.now
        · refine EvaluationsWritten.kept hnone (hsame ?_) fun _ => hkey
          rw [hwritten, ← hkey, StatusDetails.withArchive_self]
        · refine EvaluationsWritten.overwritten hnone harchives hkey (hchanged ?_)
          intro hunchanged
          rw [hunchanged] at hwritten
          exact hkey (congrArg StatusDetails.primaryThreadArchivedAt hwritten)
      · by_cases hunchanged :
            tx.session.statusDetails = attempt.read.session.statusDetails
        · exact EvaluationsWritten.kept hnone (hsame hunchanged)
            fun hother => absurd hother harchives
        · cases Transaction.body_details hcommitted.body with
          | archived harchived => exact absurd harchived harchives
          | kept hwritten => exact absurd hwritten hunchanged
          | carried happended =>
              have hread := hcommitted.spec.readEvents happended
              rw [hcommitted.snapshot] at hread
              exact EvaluationsWritten.carried hnone
                (Bool.eq_false_iff.mpr harchives) hread
                (hchanged hunchanged)

end

/-! ## Whole runs -/

/-- The entries are those of the evaluations that the commits recorded. -/
def RecordsAll (py : Python) (commit : Commit) (older : List Commit) : Prop :=
  commit.db.evaluations = evaluatedOutcomes py (commit :: older)

/-- Every entry belongs to an event of the log, in the order of the log, and none is
there twice. -/
structure LedgerBacked (db : Db) : Prop where
  listed : db.evaluations.Sublist (loggedEvaluations db.events)
  distinct : db.evaluations.Nodup

/-- While the log has not grown, no entry has been added. -/
structure EvaluationsOrder (older newer : Db) : Prop where
  events : older.events.length ≤ newer.events.length
  entries : newer.events.length = older.events.length →
    newer.evaluations = older.evaluations

theorem EvaluationsOrder.trans
    {first second third : Db} (hfront : EvaluationsOrder first second)
    (hback : EvaluationsOrder second third) : EvaluationsOrder first third where
  events := hfront.events.trans hback.events
  entries := by
    intro hlength
    have hmiddle := hfront.events
    have hlast := hback.events
    rw [hback.entries (by omega), hfront.entries (by omega)]

theorem Created.evaluations
    {py : Python} {db : Db} (hcreated : Created py db) : db.evaluations = [] := by
  obtain ⟨seed, context, tx, added, happends, -, hcommit⟩ := hcreated.spec
  have hsnapshot : tx.snapshot = emptyDb seed := happends.snapshot
  unfold Db.evaluations
  rw [(Tx.commit_eq_some.mp hcommit).2]
  simp only [flushSession, hsnapshot, happends.session]
  exact congrArg StatusDetails.outcomeEvaluations (flushColumn_of_written _ rfl)

section

variable {py : Python} {world : World} {attempt : Attempt} {tx : Tx} {db : Db}

theorem evaluatedOutcomes_unrecorded
    (hnone : attempt.transaction.evaluation? py = none) (history : List Commit) :
    evaluatedOutcomes py (attempt.commit db :: history) =
      evaluatedOutcomes py history := by
  have hevent : (attempt.commit db).evaluationEvent? py = none := by
    simp [Commit.evaluationEvent?, Commit.transaction, Attempt.commit, hnone]
  simp [evaluatedOutcomes, hevent]

theorem evaluatedOutcomes_recorded
    {evaluation : Dict} {before : List SessionEvent} {event closing : SessionEvent}
    (hsome : attempt.transaction.evaluation? py = some evaluation)
    (hevents : db.events = before ++ [event, closing]) (history : List Commit) :
    evaluatedOutcomes py (attempt.commit db :: history) =
      evaluatedOutcomes py history ++ [evaluationEntry event] := by
  have hevent : (attempt.commit db).evaluationEvent? py = some event := by
    simp [Commit.evaluationEvent?, Commit.transaction, Attempt.commit, hsome, hevents]
  simp [evaluatedOutcomes, hevent]

/-- A commit records everything exactly if it loses nothing, once all before it have. -/
theorem EvaluationsWritten.recordsAll_iff
    (hwritten : EvaluationsWritten py world attempt db)
    (horder : EvaluationsOrder attempt.read world.db)
    (hcurrent : world.db.evaluations = evaluatedOutcomes py world.history) :
    RecordsAll py (attempt.commit db) world.history ↔
      ¬(attempt.commit db).losesEvaluations world.history := by
  have hsame : attempt.read.events = world.db.events →
      attempt.read.evaluations = evaluatedOutcomes py world.history := by
    intro hevents
    rw [← hcurrent, horder.entries (by rw [hevents])]
  have hloses : (attempt.commit db).losesEvaluations world.history ↔
      attempt.transaction.archivesPrimary attempt.read.session = true ∧
        attempt.read.session.statusDetails.primaryThreadArchivedAt ≠
            some attempt.context.now ∧
          world.db.evaluations ≠ attempt.read.evaluations := by
    simp [Commit.losesEvaluations, Attempt.commit, World.history, World.db]
  unfold RecordsAll
  rw [hloses]
  cases hwritten with
  | kept hnone hkept harchives =>
      rw [evaluatedOutcomes_unrecorded hnone]
      exact iff_of_true (hkept.trans hcurrent) fun hlost =>
        hlost.2.1 (harchives hlost.1)
  | overwritten hnone harchives harchived hwritten =>
      rw [evaluatedOutcomes_unrecorded hnone, ← hcurrent]
      change db.evaluations = world.db.evaluations ↔ _
      rw [hwritten]
      constructor
      · exact fun hread hlost => hlost.2.2 hread.symm
      · intro hkept
        by_contra hother
        exact hkept ⟨harchives, harchived, fun hread => hother hread.symm⟩
  | carried hnone harchives hread hwritten =>
      rw [evaluatedOutcomes_unrecorded hnone]
      refine iff_of_true (hwritten.trans (hsame hread)) fun hlost => ?_
      rw [harchives] at hlost
      cases hlost.1
  | recorded evaluation added event closing hsome hread hevents htype houtcome hwritten =>
      rw [evaluatedOutcomes_recorded hsome (by rw [hevents, List.append_assoc])]
      refine iff_of_true ?_ fun hlost => ?_
      · change db.evaluations = _
        rw [hwritten, hsame hread]
      · rw [Transaction.evaluation?_archivesPrimary hsome] at hlost
        cases hlost.1

theorem Committed.evaluationsOrder
    (hcommitted : Committed py world attempt tx db)
    (horder : EvaluationsOrder attempt.read world.db)
    (hkept : ¬(attempt.commit db).losesEvaluations world.history) :
    EvaluationsOrder world.db db where
  events := by
    rw [hcommitted.spec.events, List.length_append]
    omega
  entries := by
    intro hlength
    cases hcommitted.evaluationsWritten with
    | kept hnone hkept harchives => exact hkept
    | overwritten hnone harchives harchived hwritten =>
        by_contra hother
        refine hkept ⟨harchives, harchived, _, rfl, fun hsame => hother ?_⟩
        exact hwritten.trans hsame.symm
    | carried hnone harchives hread hwritten =>
        rw [hwritten, horder.entries (by rw [hread])]
    | recorded evaluation added event closing hsome hread hevents htype houtcome
        hwritten =>
        rw [hevents] at hlength
        simp at hlength

theorem Committed.evaluations_listed
    (hcommitted : Committed py world attempt tx db)
    (hread : attempt.read.evaluations.Sublist (loggedEvaluations attempt.read.events))
    (hcurrent : world.db.evaluations.Sublist (loggedEvaluations world.db.events)) :
    db.evaluations.Sublist (loggedEvaluations db.events) := by
  have hgrown : (loggedEvaluations world.db.events).Sublist
      (loggedEvaluations db.events) := by
    rw [hcommitted.spec.events, loggedEvaluations_append]
    exact List.sublist_append_left _ _
  have hearlier : (loggedEvaluations attempt.read.events).Sublist
      (loggedEvaluations world.db.events) := by
    obtain ⟨later, hlater⟩ := hcommitted.earlier.events
    rw [← hlater, loggedEvaluations_append]
    exact List.sublist_append_left _ _
  cases hcommitted.evaluationsWritten with
  | kept hnone hkept harchives =>
      rw [hkept]
      exact hcurrent.trans hgrown
  | overwritten hnone harchives harchived hwritten =>
      rw [hwritten]
      exact (hread.trans hearlier).trans hgrown
  | carried hnone harchives hsame hwritten =>
      rw [hwritten]
      exact (hread.trans hearlier).trans hgrown
  | recorded evaluation added event closing hsome hsame hevents htype houtcome hwritten =>
      have hlogged : loggedEvaluations [event, closing] =
          evaluationEntry event :: loggedEvaluations [closing] := by
        simp [loggedEvaluations, htype]
      rw [hwritten, hevents, loggedEvaluations_append, loggedEvaluations_append, hlogged]
      refine (hread.trans hearlier).append ?_
      refine List.Sublist.trans ?_ (List.sublist_append_right _ _)
      exact (List.nil_sublist _).cons_cons _

end

/-- What holds of a history of commits. -/
structure LedgerKept (py : Python) (history : List Commit) : Prop where
  listed : ∀ state ∈ history.map Commit.db,
    state.evaluations.Sublist (loggedEvaluations state.events)
  complete : EveryEntry (RecordsAll py) history ↔
    EveryEntry (fun commit older => ¬commit.losesEvaluations older) history
  ordered : EveryEntry (RecordsAll py) history →
    (history.map Commit.db).Pairwise fun newer older => EvaluationsOrder older newer

theorem LedgerKept.order
    {py : Python} {world : World} (hkept : LedgerKept py world.history)
    (hall : EveryEntry (RecordsAll py) world.history) {state : Db}
    (hstate : state ∈ world.history.map Commit.db) : EvaluationsOrder state world.db := by
  rcases List.mem_cons.mp hstate with rfl | hold
  · exact ⟨le_rfl, fun _ => rfl⟩
  · exact (List.pairwise_cons.mp (hkept.ordered hall)).1 state hold

/-- The entries of the status details belong to evaluations in the log, in order and
each once; at every commit they are those of all evaluations recorded so far exactly if
no archive of the primary thread wrote over entries that it had not read. -/
theorem outcome_ledger
    {py : Python} {db : Db} {labels : List Label} {world : World}
    (hcreated : Created py db)
    (hrun : run (step py) (World.start db) labels = some world) :
    (∀ state ∈ world.history.map Commit.db, LedgerBacked state) ∧
      (EveryEntry (RecordsAll py) world.history ↔
        EveryEntry (fun commit older => ¬commit.losesEvaluations older)
          world.history) := by
  have hkept : LedgerKept py world.history := by
    refine @run_history py (fun _ _ => True) (LedgerKept py) ?start ?session ?work _ _ _
      hcreated (allSteps_true _ _) hrun
    case start =>
      intro created hcreated
      have hempty := hcreated.evaluations
      constructor
      · intro state hstate
        obtain rfl := List.mem_singleton.mp hstate
        rw [hempty]
        exact List.nil_sublist _
      · refine iff_of_true (everyEntry_nil.cons hempty) (everyEntry_nil.cons ?_)
        simp [Commit.losesEvaluations]
      · exact fun _ => List.pairwise_singleton _ _
    case session =>
      intro before label attempt tx next hbefore _ hattempt hcommitted
      have hread := World.attempt_read_mem hattempt
      have hstep : EveryEntry (RecordsAll py) before.history →
          (RecordsAll py (attempt.commit next) before.history ↔
            ¬(attempt.commit next).losesEvaluations before.history) := by
        intro hall
        exact hcommitted.evaluationsWritten.recordsAll_iff (hbefore.order hall hread)
          hall.head
      constructor
      · rw [List.map_cons, List.forall_mem_cons]
        refine ⟨?_, hbefore.listed⟩
        exact hcommitted.evaluations_listed (hbefore.listed _ hread)
          (hbefore.listed _ before.db_mem)
      · rw [everyEntry_cons, everyEntry_cons, ← hbefore.complete]
        exact and_congr_right hstep
      · rw [everyEntry_cons]
        rintro ⟨hall, hrecorded⟩
        refine List.pairwise_cons.mpr ⟨?_, hbefore.ordered hall⟩
        intro state hstate
        exact (hbefore.order hall hstate).trans
          (hcommitted.evaluationsOrder (hbefore.order hall hread)
            ((hstep hall).mp hrecorded))
    case work =>
      intro before read next hbefore hsession hevents
      have hentries : next.evaluations = before.db.evaluations := by
        rw [Db.evaluations, hsession]
        rfl
      have hlast : EvaluationsOrder before.db next :=
        ⟨by rw [hevents], fun _ => hentries⟩
      constructor
      · rw [List.map_cons, List.forall_mem_cons]
        refine ⟨?_, hbefore.listed⟩
        rw [hentries, hevents]
        exact hbefore.listed _ before.db_mem
      · rw [everyEntry_cons, everyEntry_cons, ← hbefore.complete]
        refine and_congr_right fun hall => iff_of_true ?_ ?_
        · have hcurrent : before.db.evaluations = evaluatedOutcomes py before.history :=
            hall.head
          simp [RecordsAll, evaluatedOutcomes, Commit.evaluationEvent?,
            Commit.transaction, hentries, hcurrent]
        · simp [Commit.losesEvaluations]
      · rw [everyEntry_cons]
        rintro ⟨hall, -⟩
        refine List.pairwise_cons.mpr ⟨?_, hbefore.ordered hall⟩
        exact fun state hstate => (hbefore.order hall hstate).trans hlast
  refine ⟨fun state hstate => ?_, hkept.complete⟩
  have hinterleaved : world.IsInterleaving py fun _ => True :=
    run_isInterleaving hcreated ((allSteps_true _ _).mono fun _ _ _ _ _ => trivial) hrun
  have hwellFormed := (committed_states hinterleaved).1 state hstate
  have hlisted := hkept.listed state hstate
  exact ⟨hlisted, (loggedEvaluations_nodup hwellFormed.ids).sublist hlisted⟩

/-! ## A sample ledger -/

def sampleOutcome : SessionEventInput where
  type := "user.define_outcome"
  fields :=
    [("description", .str "Write a report."),
     ("rubric", .dict [("type", .str "text"), ("content", .str "Short.")])]

/-- An outcome is defined, and a turn ends and evaluates it. -/
def evaluatedTurn : List Label :=
  [sampleSend [sampleOutcome] 0 "b",
   .claim 0 0 0,
   .move 0 .enter,
   .turn 0 .start 0 (sampleContext "c"),
   .turn 0 (.load sampleRows) 0 (sampleContext "d"),
   .move 0 (.execute { finalText := "done" }),
   .turn 0 .outcome 0 (sampleContext "e")]

def evaluatedWorld : World :=
  (run (step samplePython) (World.start sampleDb) evaluatedTurn).get (by decide)

theorem sample_outcome_ledger :
    evaluatedWorld.db.evaluations.length = 1 ∧ LedgerBacked evaluatedWorld.db :=
  ⟨by decide, (@outcome_ledger samplePython sampleDb evaluatedTurn evaluatedWorld
    sampleDb_created (Option.some_get _).symm).1 _ evaluatedWorld.db_mem⟩

/-- An archive that read the session before the turn ended takes the entry away. -/
example :
    ((run (step samplePython) (World.start sampleDb)
      (evaluatedTurn ++ [sampleArchive 1 "f"])).map fun world =>
        (world.db.evaluations.length, (loggedEvaluations world.db.events).length)) =
      some (0, 1) := by
  decide

end ManagedAgents
