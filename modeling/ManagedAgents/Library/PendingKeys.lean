import Mathlib.Data.Finset.Dedup
import Mathlib.Data.Finset.SDiff
import Mathlib.Data.Finset.Card

/-!
# Keys that are settled once

A finite set of keys is pending.  Batches of keys settle them; a batch is
admissible if its keys are distinct and all still pending.  Batches that are
admitted one after the other act as their concatenation, so over a whole
history no key is settled twice.
-/

namespace PendingKeys

variable {Key : Type*}

/-- The keys of the batch are distinct and pending. -/
structure Admissible (pending : Finset Key) (batch : List Key) : Prop where
  nodup : batch.Nodup
  pending : ∀ key ∈ batch, key ∈ pending

theorem admissible_nil {pending : Finset Key} : Admissible pending [] :=
  ⟨List.nodup_nil, by simp⟩

variable [DecidableEq Key]

instance (pending : Finset Key) (batch : List Key) :
    Decidable (Admissible pending batch) :=
  decidable_of_iff (batch.Nodup ∧ ∀ key ∈ batch, key ∈ pending)
    ⟨fun h => ⟨h.1, h.2⟩, fun h => ⟨h.nodup, h.pending⟩⟩

/-- What is pending after the batch. -/
def settle (pending : Finset Key) (batch : List Key) : Finset Key :=
  pending \ batch.toFinset

variable {pending : Finset Key}

@[simp] theorem mem_settle {batch : List Key} {key : Key} :
    key ∈ settle pending batch ↔ key ∈ pending ∧ key ∉ batch := by
  simp [settle]

@[simp] theorem settle_nil : settle pending [] = pending := by
  simp [settle]

theorem settle_cons (key : Key) (batch : List Key) :
    settle pending (key :: batch) = settle (settle pending batch) [key] := by
  ext other
  simp only [mem_settle, List.mem_cons, List.not_mem_nil, or_false]
  tauto

theorem settle_append (front back : List Key) :
    settle pending (front ++ back) = settle (settle pending front) back := by
  ext key
  simp only [mem_settle, List.mem_append]
  tauto

/-- Two batches are admitted in turn exactly if their concatenation is. -/
theorem admissible_append_iff {front back : List Key} :
    Admissible pending (front ++ back) ↔
      Admissible pending front ∧ Admissible (settle pending front) back := by
  constructor
  · intro hboth
    obtain ⟨hfront, hback, hdisjoint⟩ := List.nodup_append.mp hboth.nodup
    refine ⟨⟨hfront, ?_⟩, hback, ?_⟩
    · intro key hkey
      exact hboth.pending key (List.mem_append_left back hkey)
    · intro key hkey
      refine mem_settle.mpr
        ⟨hboth.pending key (List.mem_append_right front hkey), ?_⟩
      intro hmem
      exact hdisjoint key hmem key hkey rfl
  · rintro ⟨hfront, hback⟩
    constructor
    · refine List.nodup_append.mpr ⟨hfront.nodup, hback.nodup, ?_⟩
      rintro key hkey other hother rfl
      exact (mem_settle.mp (hback.pending key hother)).2 hkey
    · intro key hkey
      rcases List.mem_append.mp hkey with hkey | hkey
      · exact hfront.pending key hkey
      · exact (mem_settle.mp (hback.pending key hkey)).1

theorem admissible_cons_iff {key : Key} {rest : List Key} :
    Admissible pending (key :: rest) ↔
      key ∈ pending ∧ Admissible (settle pending [key]) rest := by
  have hsingle : Admissible pending [key] ↔ key ∈ pending :=
    ⟨fun h => h.pending key List.mem_cons_self,
      fun h => ⟨List.nodup_singleton key, by simpa using h⟩⟩
  rw [← hsingle]
  exact @admissible_append_iff _ _ pending [key] rest

end PendingKeys
