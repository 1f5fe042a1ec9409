import Mathlib.Data.List.Range
import Mathlib.Data.List.Sort
import Mathlib.Tactic

/-!
# Logs numbered by a read-modify-write counter

Entries carry a number which their writer computed from a counter it read
earlier.  A uniqueness check on the number is the only guard.  The file shows
that this check alone refuses every writer whose counter was stale, so the
entries of a log that accepted only checked writes are numbered without gaps.
-/

namespace SequencedLog

variable {Entry : Type*} {seq : Entry → ℕ}

/-- The entries carry the numbers `base + 1, base + 2, …` in their order. -/
def NumberedFrom (seq : Entry → ℕ) (base : ℕ) (entries : List Entry) : Prop :=
  entries.map seq = List.range' (base + 1) entries.length

instance (seq : Entry → ℕ) (base : ℕ) (entries : List Entry) :
    Decidable (NumberedFrom seq base entries) :=
  inferInstanceAs (Decidable (_ = _))

/-- A log whose entries carry exactly `1, …, length`. -/
abbrev GapFree (seq : Entry → ℕ) (log : List Entry) : Prop :=
  NumberedFrom seq 0 log

/-- The uniqueness check on a key refuses an addition that reuses a value of
the key. -/
def Collides {Key : Type*} (key : Entry → Key) (log added : List Entry) : Prop :=
  ∃ entry ∈ added, ∃ old ∈ log, key entry = key old

instance {Key : Type*} [DecidableEq Key] (key : Entry → Key)
    (log added : List Entry) : Decidable (Collides key log added) :=
  inferInstanceAs
    (Decidable (∃ entry ∈ added, ∃ old ∈ log, key entry = key old))

@[simp] theorem not_collides_nil {Key : Type*} (key : Entry → Key)
    (log : List Entry) : ¬ Collides key log [] := by
  simp [Collides]

@[simp] theorem numberedFrom_nil (base : ℕ) :
    NumberedFrom seq base [] := rfl

theorem NumberedFrom.append
    {base : ℕ} {front back : List Entry}
    (hfront : NumberedFrom seq base front)
    (hback : NumberedFrom seq (base + front.length) back) :
    NumberedFrom seq base (front ++ back) := by
  unfold NumberedFrom at *
  rw [List.map_append, hfront, hback, List.length_append]
  rw [show base + front.length + 1 = base + 1 + front.length by omega]
  exact List.range'_append_1

theorem NumberedFrom.singleton
    {base : ℕ} {entry : Entry} (hseq : seq entry = base + 1) :
    NumberedFrom seq base [entry] := by
  simp [NumberedFrom, hseq]

theorem NumberedFrom.exists_seq_iff
    {base number : ℕ} {entries : List Entry}
    (hnumbered : NumberedFrom seq base entries) :
    (∃ entry ∈ entries, seq entry = number) ↔
      base < number ∧ number ≤ base + entries.length := by
  rw [← List.mem_map, hnumbered, List.mem_range'_1]
  omega

theorem NumberedFrom.seq_bounds
    {base : ℕ} {entries : List Entry}
    (hnumbered : NumberedFrom seq base entries)
    {entry : Entry} (hentry : entry ∈ entries) :
    base < seq entry ∧ seq entry ≤ base + entries.length :=
  hnumbered.exists_seq_iff.mp ⟨entry, hentry, rfl⟩

/-- A non-empty addition numbered from a counter below the log's length meets
a number that is already taken. -/
theorem collides_of_stale
    {counter : ℕ} {log added : List Entry}
    (hlog : GapFree seq log) (hadded : NumberedFrom seq counter added)
    (hne : added ≠ []) (hstale : counter < log.length) :
    Collides seq log added := by
  have hpos : 0 < added.length := List.length_pos_iff.mpr hne
  have hnew : ∃ entry ∈ added, seq entry = counter + 1 :=
    hadded.exists_seq_iff.mpr (by omega)
  have htaken : ∃ old ∈ log, seq old = counter + 1 :=
    hlog.exists_seq_iff.mpr (by omega)
  rcases hnew with ⟨entry, hentry, hseq⟩
  rcases htaken with ⟨old, hold, hseqOld⟩
  exact ⟨entry, hentry, old, hold, hseq.trans hseqOld.symm⟩

/-- An addition which passes the uniqueness check read the current counter. -/
theorem counter_eq_of_not_collides
    {counter : ℕ} {log added : List Entry}
    (hlog : GapFree seq log) (hadded : NumberedFrom seq counter added)
    (hne : added ≠ []) (hbound : counter ≤ log.length)
    (hunique : ¬ Collides seq log added) :
    counter = log.length := by
  by_contra hcounter
  exact hunique (collides_of_stale hlog hadded hne (by omega))

theorem not_collides_of_current
    {log added : List Entry}
    (hlog : GapFree seq log)
    (hadded : NumberedFrom seq log.length added) :
    ¬ Collides seq log added := by
  rintro ⟨entry, hentry, old, hold, heq⟩
  have hnew := hadded.seq_bounds hentry
  have hlast := hlog.seq_bounds hold
  omega

/-- Whatever counter the addition was numbered from, a log extended by an
addition that passes the check stays gap-free. -/
theorem GapFree.append_of_not_collides
    {counter : ℕ} {log added : List Entry}
    (hlog : GapFree seq log) (hadded : NumberedFrom seq counter added)
    (hbound : counter ≤ log.length)
    (hunique : ¬ Collides seq log added) :
    GapFree seq (log ++ added) := by
  by_cases hne : added = []
  · simpa [hne] using hlog
  · have hcounter :=
      counter_eq_of_not_collides hlog hadded hne hbound hunique
    apply hlog.append
    rw [Nat.zero_add, ← hcounter]
    exact hadded

/-! ## Reading a page of a gap-free log -/

theorem NumberedFrom.pairwise_lt
    {base : ℕ} {entries : List Entry}
    (hnumbered : NumberedFrom seq base entries) :
    entries.Pairwise fun left right => seq left < seq right := by
  have hrange : (entries.map seq).Pairwise (· < ·) := by
    rw [hnumbered]
    exact List.pairwise_lt_range'
  exact List.pairwise_map.mp hrange

theorem NumberedFrom.filter_after
    {base after : ℕ} {entries : List Entry}
    (hnumbered : NumberedFrom seq base entries) :
    (entries.filter fun entry => after < seq entry) =
      entries.drop (after - base) := by
  induction entries generalizing base with
  | nil => simp
  | cons entry rest ih =>
      have hcons : seq entry = base + 1 ∧ NumberedFrom seq (base + 1) rest := by
        simpa [NumberedFrom, List.range'_succ] using hnumbered
      obtain ⟨hseq, hrest⟩ := hcons
      by_cases hafter : after < base + 1
      · have hall : ∀ other ∈ rest, after < seq other := by
          intro other hother
          have := hrest.seq_bounds hother
          omega
        rw [show after - base = 0 by omega, List.drop_zero]
        apply List.filter_eq_self.mpr
        intro other hother
        rcases List.mem_cons.mp hother with rfl | hother
        · simpa [hseq] using hafter
        · simpa using hall other hother
      · have hskip : ¬ after < seq entry := by omega
        rw [List.filter_cons_of_neg (by simpa using hskip), ih hrest]
        rw [show after - base = (after - (base + 1)) + 1 by omega,
          List.drop_succ_cons]

/-- Sorting a numbered list by its numbers leaves it alone. -/
theorem NumberedFrom.insertionSort_eq
    {base : ℕ} {entries : List Entry}
    (hnumbered : NumberedFrom seq base entries) :
    entries.insertionSort (fun left right => seq left ≤ seq right) =
      entries := by
  apply List.Pairwise.insertionSort_eq
  exact hnumbered.pairwise_lt.imp fun h => h.le

end SequencedLog
