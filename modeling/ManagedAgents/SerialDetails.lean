import ManagedAgents.DetailsWriters
import ManagedAgents.SystemRuns

/-!
# Status details under concurrency

Writers that append events read the current log or do not commit, but the
archive of the primary thread appends none.  The details equal those of the
committed transactions run one after the other as long as no archive has read
details that were rewritten since, and no other writer rewrites details whose
archive key it has not read.
-/

namespace ManagedAgents

open LabelledRuns SnapshotHistory

/-! ## The serial order of the commits -/

/-- The details after running the committed transactions one after the other,
each reading the details which the one before it left. -/
def serialDetails (py : Python) : List Commit → StatusDetails
  | [] => {}
  | commit :: older =>
      match commit.writer with
      | .created => commit.db.session.statusDetails
      | .session _ transaction context =>
          transaction.detailsFrom py context commit.read (serialDetails py older)
      | .work => serialDetails py older

/-- At every commit, the details are those of the serial order. -/
def DetailsSerial (py : Python) (history : List Commit) : Prop :=
  EveryEntry (fun commit older =>
    commit.db.session.statusDetails = serialDetails py (commit :: older)) history

/-- An archive that overwrites details rewritten since it read them.  One that
read its own time as the key already writes nothing. -/
def ArchiveOverwrites (world : World) (attempt : Attempt) : Prop :=
  let read := attempt.read.session.statusDetails
  let current := world.db.session.statusDetails
  let archivedAt := some attempt.context.now
  attempt.transaction.archivesPrimary attempt.read.session = true ∧
    (read.primaryThreadArchivedAt ≠ archivedAt ∧
        read.withArchive none ≠ current.withArchive none ∨
      read.primaryThreadArchivedAt = archivedAt ∧
        current.primaryThreadArchivedAt ≠ archivedAt)

/-- A rewrite that overwrites the key of an archive it has not read. -/
def RewriteOverwrites (py : Python) (world : World) (attempt : Attempt) : Prop :=
  attempt.transaction.rewritesDetails py attempt.read.session = true ∧
    attempt.read.events = world.db.events ∧
    attempt.read.session.statusDetails.primaryThreadArchivedAt ≠
      world.db.session.statusDetails.primaryThreadArchivedAt

def LosesDetails (py : Python) (world : World) (attempt : Attempt) : Prop :=
  ArchiveOverwrites world attempt ∨ RewriteOverwrites py world attempt

instance (py : Python) (world : World) (attempt : Attempt) :
    Decidable (LosesDetails py world attempt) :=
  inferInstanceAs
    (Decidable (_ ∧ ((_ ≠ _) ∧ (_ ≠ _) ∨ _ = _ ∧ (_ ≠ _)) ∨ _ ∧ _ ∧ (_ ≠ _)))

def NoLostDetails (py : Python) (world : World) (label : Label) : Prop :=
  ∀ attempt ∈ world.attempt label, ¬ LosesDetails py world attempt

instance (py : Python) (world : World) (label : Label) :
    Decidable (NoLostDetails py world label) :=
  inferInstanceAs (Decidable (∀ attempt ∈ world.attempt label, _))

/-! ## One commit -/

theorem StatusDetails.eq_withArchive
    {left right : StatusDetails}
    (hsame : left.withArchive none = right.withArchive none)
    (archivedAt : Option Time) :
    left.withArchive archivedAt = right.withArchive archivedAt := by
  rw [← StatusDetails.withArchive_withArchive left none archivedAt, hsame,
    StatusDetails.withArchive_withArchive]

theorem Transaction.detailsFrom_self
    {py : Python} {transaction : Transaction} {context : Context} {read : Db}
    {tx : Tx} (hbody : transaction.body py (Tx.begin read context) = some tx) :
    transaction.detailsFrom py context read read.session.statusDetails =
      tx.session.statusDetails := by
  have hsame : read.withDetails read.session.statusDetails = read := rfl
  unfold Transaction.detailsFrom
  rw [hsame, hbody]

theorem Committed.statusDetails
    {py : Python} {world : World} {attempt : Attempt} {tx : Tx} {db : Db}
    (hcommitted : Committed py world attempt tx db) :
    db.session.statusDetails =
      flushColumn attempt.read.session.statusDetails tx.session.statusDetails
        world.db.session.statusDetails := by
  rw [(Tx.commit_eq_some.mp hcommitted.commit).2, ← hcommitted.snapshot]
  rfl

/-- Two committed states between which no event was appended differ in their
details at most in the key of the archive. -/
structure DetailsOrder (older newer : Db) : Prop where
  events : older.events.length ≤ newer.events.length
  details : older.events.length = newer.events.length →
    older.session.statusDetails.withArchive none =
      newer.session.statusDetails.withArchive none

theorem DetailsOrder.trans
    {first second third : Db}
    (hfront : DetailsOrder first second) (hback : DetailsOrder second third) :
    DetailsOrder first third where
  events := hfront.events.trans hback.events
  details := by
    intro hlength
    have hle := hfront.events
    have hle' := hback.events
    rw [hfront.details (by omega), hback.details (by omega)]

section

variable {py : Python} {world : World} {attempt : Attempt} {tx : Tx} {db : Db}

/-- A commit that loses nothing leaves the details of the serial order. -/
theorem Committed.details_serial
    (hcommitted : Committed py world attempt tx db)
    (horder : DetailsOrder attempt.read world.db)
    (hkeeps : ¬ LosesDetails py world attempt) :
    db.session.statusDetails =
      attempt.transaction.detailsFrom py attempt.context attempt.read
        world.db.session.statusDetails := by
  rw [hcommitted.statusDetails]
  unfold LosesDetails at hkeeps
  simp only [not_or] at hkeeps
  cases Transaction.body_details hcommitted.body with
  | archived harchives hwritten hserial =>
      rw [hserial, hwritten]
      by_cases hread :
          attempt.read.session.statusDetails.primaryThreadArchivedAt =
            some attempt.context.now
      · -- the key is there already, and nothing is written
        have hcurrent :
            world.db.session.statusDetails.primaryThreadArchivedAt =
              some attempt.context.now := by
          by_contra hother
          exact hkeeps.1 ⟨harchives, Or.inr ⟨hread, hother⟩⟩
        rw [← hread, StatusDetails.withArchive_self, flushColumn_same, hread,
          ← hcurrent, StatusDetails.withArchive_self]
      · have hchanged :
            attempt.read.session.statusDetails.withArchive
                (some attempt.context.now) ≠
              attempt.read.session.statusDetails := by
          intro hsame
          have hkey :=
            congrArg StatusDetails.primaryThreadArchivedAt hsame
          exact hread hkey.symm
        unfold flushColumn
        rw [if_neg hchanged]
        apply StatusDetails.eq_withArchive
        by_contra hother
        exact hkeeps.1 ⟨harchives, Or.inl ⟨hread, hother⟩⟩
  | carried happended hkept hserial =>
      have hevents := hcommitted.spec.readEvents happended
      rw [hcommitted.snapshot] at hevents
      have hcurrent :
          attempt.read.session.statusDetails.withArchive
              world.db.session.statusDetails.primaryThreadArchivedAt =
            world.db.session.statusDetails :=
        StatusDetails.eq_withArchive
          (horder.details (congrArg List.length hevents)) _
      rw [← hcurrent, hserial]
      by_cases hsame :
          tx.session.statusDetails = attempt.read.session.statusDetails
      · rw [hsame, flushColumn_same]
      · have hrewrites : attempt.transaction.rewritesDetails py
            attempt.read.session = true := by
          by_contra hnot
          exact hsame (hkept (Bool.eq_false_iff.mpr hnot))
        have hkey :
            attempt.read.session.statusDetails.primaryThreadArchivedAt =
              world.db.session.statusDetails.primaryThreadArchivedAt := by
          by_contra hother
          exact hkeeps.2 ⟨hrewrites, hevents, hother⟩
        have hself := hserial
          attempt.read.session.statusDetails.primaryThreadArchivedAt
        rw [StatusDetails.withArchive_self,
          Transaction.detailsFrom_self hcommitted.body] at hself
        unfold flushColumn
        rw [if_neg hsame, ← hkey]
        exact hself
  | kept hwritten hserial => rw [hserial, hwritten, flushColumn_same]

theorem Committed.detailsOrder
    (hcommitted : Committed py world attempt tx db)
    (horder : DetailsOrder attempt.read world.db)
    (hkeeps : ¬ LosesDetails py world attempt) :
    DetailsOrder world.db db where
  events := by
    rw [hcommitted.spec.events, List.length_append]
    omega
  details := by
    intro hlength
    rw [hcommitted.details_serial horder hkeeps]
    rw [hcommitted.spec.events, List.length_append] at hlength
    have hnil : tx.appended = [] := List.length_eq_zero_iff.mp (by omega)
    cases Transaction.body_details hcommitted.body with
    | archived harchives hwritten hserial =>
        rw [hserial, StatusDetails.withArchive_withArchive]
    | carried happended hkept hserial => exact absurd hnil happended
    | kept hwritten hserial => rw [hserial]

end

/-! ## Whole runs -/

/-- In every run in which no writer of the details loses a change, the details
are at every commit those of the serial order of the commits. -/
theorem status_details_serial
    {py : Python} {db : Db} {labels : List Label} {world : World}
    (hcreated : Created py db)
    (hkeeps : AllSteps (step py) (NoLostDetails py) (World.start db) labels)
    (hrun : run (step py) (World.start db) labels = some world) :
    DetailsSerial py world.history := by
  have hboth : DetailsSerial py world.history ∧
      (world.history.map Commit.db).Pairwise
        fun newer older => DetailsOrder older newer := by
    refine @run_history py (NoLostDetails py)
      (fun history => DetailsSerial py history ∧
        (history.map Commit.db).Pairwise
          fun newer older => DetailsOrder older newer)
      ?start ?session ?work _ _ _ hcreated hkeeps hrun
    case start =>
      intro created _
      refine ⟨EveryEntry.cons everyEntry_nil rfl, List.pairwise_singleton _ _⟩
    case session =>
      intro before label attempt tx next hbefore hlabel hattempt hcommitted
      have hnot := hlabel attempt hattempt
      have holder : ∀ state ∈ before.history.map Commit.db,
          DetailsOrder state before.db := by
        intro state hstate
        rcases List.mem_cons.mp hstate with rfl | hold
        · exact ⟨le_rfl, fun _ => rfl⟩
        · exact (List.pairwise_cons.mp hbefore.2).1 state hold
      have hread := holder attempt.read (World.attempt_read_mem hattempt)
      constructor
      · refine EveryEntry.cons hbefore.1 ?_
        have hcurrent : before.db.session.statusDetails =
            serialDetails py before.history := hbefore.1.head
        change next.session.statusDetails =
          attempt.transaction.detailsFrom py attempt.context attempt.read
            (serialDetails py before.history)
        rw [← hcurrent]
        exact hcommitted.details_serial hread hnot
      · refine List.pairwise_cons.mpr ⟨?_, hbefore.2⟩
        intro state hstate
        exact (holder state hstate).trans (hcommitted.detailsOrder hread hnot)
    case work =>
      intro before read next hbefore hsession hevents
      have hlast : DetailsOrder before.db next := by
        constructor
        · rw [hevents]
        · intro _
          rw [hsession]
      constructor
      · refine EveryEntry.cons hbefore.1 ?_
        have hcurrent : before.db.session.statusDetails =
            serialDetails py before.history := hbefore.1.head
        change next.session.statusDetails = serialDetails py before.history
        rw [hsession, hcurrent]
      · refine List.pairwise_cons.mpr ⟨?_, hbefore.2⟩
        intro state hstate
        rcases List.mem_cons.mp hstate with rfl | hold
        · exact hlast
        · exact ((List.pairwise_cons.mp hbefore.2).1 state hold).trans hlast
  exact hboth.1

/-! ## An overlay lost to an archive -/

def sampleResponse : ResponseContext where
  version := some sampleVersion
  resources := []
  createdAt := 0
  updatedAt := 0

def sampleOverlay (age : ℕ) (tag : String) : Label :=
  .request 0 (.updateSession sampleResponse { agent := some [("tools", .list [])] })
    age (sampleContext tag)

def sampleArchive (age : ℕ) (tag : String) : Label :=
  .request 0 (.archiveSessionThread "thrd_sess_1_primary" true) age
    (sampleContext tag)

def archivedOverlayWorld : World :=
  (run (step samplePython) (World.start sampleDb)
    [sampleOverlay 0 "b", sampleArchive 0 "c", sampleOverlay 0 "d"]).get (by decide)

theorem archived_overlay_serial :
    DetailsSerial samplePython archivedOverlayWorld.history :=
  status_details_serial sampleDb_created (by decide)
    (Option.some_get _).symm

def finalDetails (labels : List Label) : Option StatusDetails :=
  (run (step samplePython) (World.start sampleDb) labels).map fun world =>
    world.db.session.statusDetails

/-- The details of an overlay update and an archive are not those of a serial
order when the archive read the session before the update. -/
theorem archive_loses_overlay :
    ∃ details, finalDetails [sampleOverlay 0 "b", sampleArchive 1 "c"] =
        some details ∧
      finalDetails [sampleOverlay 0 "b", sampleArchive 0 "c"] ≠ some details ∧
      finalDetails [sampleArchive 0 "c", sampleOverlay 0 "b"] ≠ some details := by
  have hraced : finalDetails [sampleOverlay 0 "b", sampleArchive 1 "c"] =
      some { primaryThreadArchivedAt := some 0 } := by
    decide
  refine ⟨_, hraced, ?_, ?_⟩
  · decide
  · decide

end ManagedAgents
