import ManagedAgents.Python

/-!
# Dates

The civil date of a day and its day of the week.  Days are counted from
1970-01-01.
-/

namespace ManagedAgents

/-- `weekday()`; 1970-01-01 was a Thursday. -/
def weekday (day : ℤ) : ℤ := (day + 3) % 7

structure CivilDate where
  year : ℤ
  month : ℤ
  day : ℤ
deriving DecidableEq, Repr

/-- The years of the count begin in March, in eras of 400 years. -/
def civilDate (day : ℤ) : CivilDate :=
  let era := (day + 719468) / 146097
  let dayOfEra := (day + 719468) % 146097
  let yearOfEra :=
    (dayOfEra - dayOfEra / 1460 + dayOfEra / 36524 - dayOfEra / 146096) / 365
  let dayOfYear := dayOfEra - (365 * yearOfEra + yearOfEra / 4 - yearOfEra / 100)
  let month := (5 * dayOfYear + 2) / 153
  { year := yearOfEra + era * 400 + if month < 10 then 0 else 1
    month := if month < 10 then month + 3 else month - 9
    day := dayOfYear - (153 * month + 2) / 5 + 1 }

example : civilDate 20624 = ⟨2026, 6, 20⟩ ∧ weekday 20624 = 5 := by decide

/-- At least two digits. -/
def twoDigits (value : ℕ) : String :=
  if value < 10 then "0" ++ toString value else toString value

/-- `strftime("%Y-%m-%d")` of an instant in UTC. -/
def isoDate (now : Time) : String :=
  let date := civilDate (now / 86400000000 : ℕ)
  toString date.year.toNat ++ "-" ++ twoDigits date.month.toNat ++ "-" ++
    twoDigits date.day.toNat

theorem isDigit_toString
    (value : ℕ) :
    ∀ char ∈ (toString value).toList, char.isDigit := by
  intro char hchar
  have htext : (toString value).toList = Nat.toDigits 10 value := Nat.toList_repr
  rw [htext] at hchar
  exact Nat.isDigit_of_mem_toDigits (by decide) (by decide) hchar

theorem twoDigits_digits
    (value : ℕ) :
    ∀ char ∈ (twoDigits value).toList, char.isDigit := by
  intro char hchar
  unfold twoDigits at hchar
  split at hchar
  · rw [String.toList_append, List.mem_append] at hchar
    rcases hchar with hzero | hchar
    · obtain rfl : char = '0' := by simpa using hzero
      rfl
    · exact isDigit_toString value char hchar
  · exact isDigit_toString value char hchar

/-- The number can be read back from its digits. -/
theorem ofDigitChars_twoDigits (value : ℕ) :
    Nat.ofDigitChars 10 (twoDigits value).toList 0 = value := by
  have htext : (toString value).toList = Nat.toDigits 10 value := Nat.toList_repr
  unfold twoDigits
  split
  · have hzero : "0".toList = ['0'] := rfl
    rw [String.toList_append, hzero, htext, List.singleton_append, Nat.ofDigitChars_cons]
    exact Nat.ofDigitChars_ten_toDigits
  · rw [htext, Nat.ofDigitChars_ten_toDigits]

theorem isoDate_chars
    (now : Time) : ∀ char ∈ (isoDate now).toList, char.isDigit ∨ char = '-' := by
  intro char hchar
  simp only [isoDate, String.toList_append, List.mem_append] at hchar
  rcases hchar with (((hyear | hdash) | hmonth) | hdash) | hday
  · exact Or.inl (isDigit_toString _ char hyear)
  · exact Or.inr (by simpa using hdash)
  · exact Or.inl (twoDigits_digits _ char hmonth)
  · exact Or.inr (by simpa using hdash)
  · exact Or.inl (twoDigits_digits _ char hday)

end ManagedAgents
