import ManagedAgents.CommittedStates

/-!
# The event log under concurrency

The numbers of a session's events come from a counter which every writer
reads and writes without a lock.  The result below needs of a writer only
that it numbers its events from the counter it read: the unique constraint
then keeps the log gap-free, whatever other columns the writer also wrote.
-/

namespace ManagedAgents

open SequencedLog SnapshotHistory

/-- A commit of some transaction that numbers its events from the counter of
the state it read. -/
def SequencedCommit (snapshot current next : Db) : Prop :=
  ∃ tx : Tx, tx.snapshot = snapshot ∧ Sequenced tx ∧ tx.commit current = some next

/-- The transactions of the program are of this kind. -/
theorem Transaction.commit_sequenced
    {py : Python} {transaction : Transaction} {snapshot current next : Db}
    {context : Context} {tx : Tx}
    (hbody : transaction.body py (Tx.begin snapshot context) = some tx)
    (hcommit : tx.commit current = some next) :
    SequencedCommit snapshot current next := by
  obtain ⟨-, hdisciplined⟩ := Transaction.body_effect hbody
  exact ⟨tx, hdisciplined.snapshot_eq, hdisciplined.sequenced, hcommit⟩

theorem sequencedCommit_step
    {snapshot current next : Db}
    (hsnapshot : WellFormed snapshot) (hcurrent : WellFormed current)
    (hextends : snapshot.events <+: current.events)
    (hcommit : SequencedCommit snapshot current next) :
    WellFormed next ∧ current.events <+: next.events := by
  obtain ⟨tx, rfl, hsequenced, hcommit⟩ := hcommit
  constructor
  · exact hsequenced.commit_wellFormed hsnapshot hcurrent hextends hcommit
  · rw [commit_events hcommit]
    exact List.prefix_append _ _

theorem sequenced_states
    {py : Python} {history : List Db}
    (hhistory : Interleaved (Created py) SequencedCommit history) :
    (∀ db ∈ history, WellFormed db) ∧
      history.Pairwise fun newer older => older.events <+: newer.events := by
  have hrefl : ∀ db : Db, db.events <+: db.events := fun _ => List.prefix_rfl
  have htrans : ∀ first second third : Db,
      first.events <+: second.events → second.events <+: third.events →
        first.events <+: third.events :=
    fun _ _ _ hfront hback => hfront.trans hback
  apply hhistory.invariant hrefl htrans
  · intro db hcreated
    exact hcreated.wellFormed
  · intro snapshot current next hsnapshot hcurrent hextends hcommit
    exact sequencedCommit_step hsnapshot hcurrent hextends hcommit

/-- In every committed state of every interleaving the events carry exactly
the numbers `1, …, last_event_seq`, once each, and the log of an older state
is a prefix of the log of a newer one. -/
theorem session_event_log_gap_free
    {py : Python} {history : List Db}
    (hhistory : Interleaved (Created py) SequencedCommit history) :
    (∀ db ∈ history,
        db.events.map SessionEvent.seq =
          List.range' 1 db.session.lastEventSeq) ∧
      history.Pairwise fun newer older => older.events <+: newer.events := by
  have hinvariant := sequenced_states hhistory
  refine ⟨?_, hinvariant.2⟩
  intro db hdb
  have hwellFormed := hinvariant.1 db hdb
  rw [hwellFormed.counter]
  exact hwellFormed.gapFree

theorem sequencedCommit_of_sampleCommit
    {transaction : Transaction} {read current next : Db} {tag : String}
    (hcommit : sampleCommit transaction read current tag = some next) :
    SequencedCommit read current next := by
  obtain ⟨tx, hbody, hnext⟩ := Option.bind_eq_some_iff.mp hcommit
  exact Transaction.commit_sequenced hbody hnext

theorem sample_event_log_gap_free :
    sampleArchived.events.map SessionEvent.seq =
      List.range' 1 sampleArchived.session.lastEventSeq :=
  (session_event_log_gap_free
    (sampleHistory_interleaved sequencedCommit_of_sampleCommit)).1
    sampleArchived List.mem_cons_self

end ManagedAgents
