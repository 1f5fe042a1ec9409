import Mathlib.Algebra.Order.Ring.Int
import Mathlib.Data.Set.Defs

/-!
# Arithmetic progressions

The integers which a progression visits from its start up to a bound.
-/

namespace Progressions

variable {start stop step : ℤ}

/-- What is reached from the start by whole steps, up to the bound. -/
def progression (start stop step : ℤ) : Set ℤ :=
  {value | ∃ index : ℕ, value = start + index * step ∧ value ≤ stop}

theorem start_mem_progression (hstart : start ≤ stop) :
    start ∈ progression start stop step :=
  ⟨0, by simp, hstart⟩

theorem bounds_of_mem_progression
    (hstep : 0 < step) {value : ℤ} (hvalue : value ∈ progression start stop step) :
    start ≤ value ∧ value ≤ stop := by
  obtain ⟨index, rfl, hstop⟩ := hvalue
  have hforward : 0 ≤ (index : ℤ) * step :=
    Int.mul_nonneg (Int.natCast_nonneg index) hstep.le
  exact ⟨by omega, hstop⟩

/-- How many whole steps stay within the bound. -/
theorem add_mul_le_iff (hstep : 0 < step) (index : ℕ) :
    start + index * step ≤ stop ↔ index < ((stop - start) / step + 1).toNat := by
  have hdiv : (index : ℤ) ≤ (stop - start) / step ↔ index * step ≤ stop - start :=
    Int.le_ediv_iff_mul_le hstep
  omega

theorem mem_progression_iff (hstep : 0 < step) {value : ℤ} :
    value ∈ progression start stop step ↔
      ∃ index < ((stop - start) / step + 1).toNat, start + index * step = value := by
  constructor
  · rintro ⟨index, rfl, hstop⟩
    exact ⟨index, (add_mul_le_iff hstep index).mp hstop, rfl⟩
  · rintro ⟨index, hindex, rfl⟩
    exact ⟨index, rfl, (add_mul_le_iff hstep index).mpr hindex⟩

end Progressions
