import ManagedAgents.CronItems
import ManagedAgents.Library.FirstElements

/-!
# The search for the next runs

The search goes through the minutes of the wall clock for a year and turns the first
five matching ones into instants.  These are the next matching instants exactly if the
zone carries the ones to the others, which it does while its offset stays the same, but
not over an hour which the clock skips or shows twice.
-/

namespace ManagedAgents

open FirstElements

/-- A matching minute of the wall clock within the reach of the search. -/
structure SearchedMinute (fields : CronFields) (zone : ZoneInfo) (now : Time)
    (minute : ℤ) : Prop where
  later : zone.wallMinute now < minute
  within : minute ≤ zone.wallMinute now + 366 * 24 * 60
  accepted : fields.matches minute = true

/-- A whole minute after now at which the wall clock shows a matching one. -/
structure MatchingInstant (fields : CronFields) (zone : ZoneInfo) (now : Time)
    (instant : Time) : Prop where
  later : now < instant
  aligned : instant % 60000000 = 0
  accepted : fields.matches (zone.wallMinute instant) = true

/-- The texts of the first five matching instants after now. -/
def ExactRuns (calendar : Calendar) (fields : CronFields) (zone : ZoneInfo) (now : Time)
    (upcoming : List String) : Prop :=
  ∃ instants : List Time, upcoming = instants.map calendar.isoformat ∧
    IsFirst 5 (MatchingInstant fields zone now) instants

/-! ## Minutes that are skipped or shown twice -/

/-- The clock does not show the minute, and the zone gives it another reading. -/
def Skipped (zone : ZoneInfo) (minute : ℤ) : Prop :=
  zone.wallMinute (zone.instantOf minute) ≠ minute

instance (zone : ZoneInfo) (minute : ℤ) : Decidable (Skipped zone minute) :=
  inferInstanceAs (Decidable (_ ≠ _))

/-- The zone gives the reading at the instant to another instant. -/
def ShownAgain (zone : ZoneInfo) (instant : Time) : Prop :=
  zone.instantOf (zone.wallMinute instant) ≠ instant

section

variable (fields : CronFields) (zone : ZoneInfo) (now : Time)

/-- One of the first five matching minutes. -/
def NextMinute (minute : ℤ) : Prop :=
  AmongFirst 5 (SearchedMinute fields zone now) minute

/-- The instant of one of these minutes, or one after all five. -/
def Covered (instant : Time) : Prop :=
  (∃ minute, NextMinute fields zone now minute ∧ zone.instantOf minute = instant) ∨
    (AtLeast 5 (SearchedMinute fields zone now) ∧
      ∀ minute, NextMinute fields zone now minute → zone.instantOf minute < instant)

/-- The zone and the fields let the first five minutes of the wall clock be the runs. -/
structure Reconciled : Prop where
  /-- The offset is one of whole minutes. -/
  aligned : ∀ minute, NextMinute fields zone now minute →
    zone.instantOf minute % 60000000 = 0
  /-- A skipped minute is given a reading that matches too. -/
  skipped : ∀ minute, NextMinute fields zone now minute → Skipped zone minute →
    fields.matches (zone.wallMinute (zone.instantOf minute)) = true
  /-- No minute was shown before now. -/
  upcoming : ∀ minute, NextMinute fields zone now minute → now < zone.instantOf minute
  /-- No skipped minute is moved to a later one or past it. -/
  ordered : ∀ first second, NextMinute fields zone now first →
    NextMinute fields zone now second → first < second →
      zone.instantOf first < zone.instantOf second
  /-- No matching minute is shown again before the fifth. -/
  repeated : ∀ instant, MatchingInstant fields zone now instant →
    ShownAgain zone instant → Covered fields zone now instant
  /-- Nor do other minutes come before, as they do if the year has fewer than five. -/
  others : ∀ instant, MatchingInstant fields zone now instant →
    ¬ShownAgain zone instant → ¬NextMinute fields zone now (zone.wallMinute instant) →
      Covered fields zone now instant

/-- The offset is one of whole minutes, and of two minutes the clock comes to the first
one first, unless it skips it. -/
structure ZoneInfo.Lawful : Prop where
  aligned : ∀ minute, zone.wallMinute now < minute → zone.instantOf minute % 60000000 = 0
  ordered : ∀ first second, zone.wallMinute now < first → first < second →
    ¬Skipped zone first → zone.instantOf first < zone.instantOf second

/-- What is left of the condition in such a zone. -/
structure Undisturbed : Prop where
  skipped : ∀ minute, NextMinute fields zone now minute → Skipped zone minute →
    fields.matches (zone.wallMinute (zone.instantOf minute)) = true ∧
      ∀ later, NextMinute fields zone now later → minute < later →
        zone.instantOf minute < zone.instantOf later
  upcoming : ∀ minute, NextMinute fields zone now minute → now < zone.instantOf minute
  repeated : ∀ instant, MatchingInstant fields zone now instant →
    ShownAgain zone instant → Covered fields zone now instant
  others : ∀ instant, MatchingInstant fields zone now instant →
    ¬ShownAgain zone instant → ¬NextMinute fields zone now (zone.wallMinute instant) →
      Covered fields zone now instant

end

section

variable {fields : CronFields} {zone : ZoneInfo} {now : Time}

theorem reconciled_iff_carries :
    Reconciled fields zone now ↔
      Carries 5 (SearchedMinute fields zone now) (MatchingInstant fields zone now)
        zone.instantOf := by
  constructor
  · intro hreconciled
    refine ⟨fun minute hminute => ?_, hreconciled.ordered, fun instant hinstant => ?_⟩
    · refine ⟨hreconciled.upcoming minute hminute, hreconciled.aligned minute hminute, ?_⟩
      by_cases hskipped : Skipped zone minute
      · exact hreconciled.skipped minute hminute hskipped
      · rw [not_not.mp hskipped]
        exact hminute.1.accepted
    · by_cases hagain : ShownAgain zone instant
      · exact hreconciled.repeated instant hinstant hagain
      · by_cases hnext : NextMinute fields zone now (zone.wallMinute instant)
        · exact .inl ⟨_, hnext, not_not.mp hagain⟩
        · exact hreconciled.others instant hinstant hagain hnext
  · intro hcarries
    exact
      { aligned := fun minute hminute => (hcarries.holds minute hminute).aligned
        skipped := fun minute hminute _ => (hcarries.holds minute hminute).accepted
        upcoming := fun minute hminute => (hcarries.holds minute hminute).later
        ordered := hcarries.increasing
        repeated := fun instant hinstant _ => hcarries.complete instant hinstant
        others := fun instant hinstant _ _ => hcarries.complete instant hinstant }

/-- In a lawful zone only skipped and repeated minutes, and the end of the year, stand in
the way. -/
theorem reconciled_iff_undisturbed
    (hlaws : zone.Lawful now) :
    Reconciled fields zone now ↔ Undisturbed fields zone now := by
  constructor
  · rintro ⟨-, hskipped, hupcoming, hordered, hrepeated, hothers⟩
    refine ⟨fun minute hminute hskip => ⟨hskipped minute hminute hskip, ?_⟩, hupcoming,
      hrepeated, hothers⟩
    exact fun later hlater hless => hordered minute later hminute hlater hless
  · rintro ⟨hskipped, hupcoming, hrepeated, hothers⟩
    refine ⟨fun minute hminute => hlaws.aligned minute hminute.1.later,
      fun minute hminute hskip => (hskipped minute hminute hskip).1, hupcoming,
      fun first second hfirst hsecond hless => ?_, hrepeated, hothers⟩
    by_cases hskip : Skipped zone first
    · exact (hskipped first hfirst hskip).2 second hsecond hless
    · exact hlaws.ordered first second hfirst.1.later hless hskip

end

/-! ## The search -/

theorem matchingMinutes_isFirst
    (fields : CronFields) (minutes count : ℕ) (current : ℤ) :
    IsFirst count
      (fun minute => current ≤ minute ∧ minute < current + minutes ∧
        fields.matches minute = true)
      (matchingMinutes fields minutes count current) := by
  fun_induction matchingMinutes fields minutes count current with
  | case1 count current =>
      exact isFirst_nil fun minute hminute => by omega
  | case2 minutes current => exact isFirst_zero
  | case3 minutes count current hmatches ih =>
      refine IsFirst.cons ⟨le_rfl, by omega, hmatches⟩
        (fun minute hminute => hminute.1) ?_
      refine ih.congr fun minute => ?_
      constructor
      · rintro ⟨hstart, hstop, haccepted⟩
        exact ⟨⟨by omega, by omega, haccepted⟩, by omega⟩
      · rintro ⟨⟨-, hstop, haccepted⟩, hstart⟩
        exact ⟨by omega, by omega, haccepted⟩
  | case4 minutes count current hmatches ih =>
      refine ih.congr fun minute => ?_
      constructor
      · rintro ⟨hstart, hstop, haccepted⟩
        exact ⟨by omega, by omega, haccepted⟩
      · rintro ⟨hstart, hstop, haccepted⟩
        have hne : minute ≠ current := by
          rintro rfl
          exact hmatches haccepted
        exact ⟨by omega, by omega, haccepted⟩

theorem searchedMinutes_isFirst
    (fields : CronFields) (zone : ZoneInfo) (now : Time) :
    IsFirst 5 (SearchedMinute fields zone now)
      (matchingMinutes fields (366 * 24 * 60) 5 (zone.wallMinute now + 1)) := by
  refine (matchingMinutes_isFirst fields _ 5 _).congr fun minute => ?_
  constructor
  · rintro ⟨hstart, hstop, haccepted⟩
    exact ⟨by omega, by push_cast at hstop; omega, haccepted⟩
  · rintro ⟨hlater, hwithin, haccepted⟩
    exact ⟨by omega, by push_cast; omega, haccepted⟩

theorem Calendar.isoformat_injective (calendar : Calendar) :
    Function.Injective calendar.isoformat := by
  intro first second hsame
  have hread := calendar.fromisoformat_isoformat first
  rw [hsame, calendar.fromisoformat_isoformat] at hread
  exact (Option.some.inj hread).symm

/-- The zone has one offset from now to the last instant. -/
structure ZoneInfo.Steady (zone : ZoneInfo) (now last : Time) (offset : ℤ) : Prop where
  now_le : now ≤ last
  wallMinute : ∀ time, now ≤ time → time ≤ last →
    zone.wallMinute time = time / 60000000 + offset
  instantOf : ∀ time, now ≤ time → time ≤ last → time % 60000000 = 0 →
    zone.instantOf (zone.wallMinute time) = time

section

variable {fields : CronFields} {zone : ZoneInfo} {now last : ℕ} {offset : ℤ}

theorem ZoneInfo.Steady.instantOf_eq
    (hsteady : zone.Steady now last offset) {minute : ℤ}
    (hlater : zone.wallMinute now < minute) (hlast : minute ≤ zone.wallMinute last) :
    ∃ instant : ℕ, zone.instantOf minute = instant ∧ now < instant ∧ instant ≤ last ∧
      instant % 60000000 = 0 ∧ zone.wallMinute instant = minute ∧
      minute = instant / 60000000 + offset := by
  rw [hsteady.wallMinute now le_rfl hsteady.now_le] at hlater
  rw [hsteady.wallMinute last hsteady.now_le le_rfl] at hlast
  obtain ⟨instant, hinstant⟩ : ∃ instant : ℕ, (instant : ℤ) = minute - offset :=
    ⟨(minute - offset).toNat, Int.toNat_of_nonneg (by omega)⟩
  have hnow : now < instant * 60000000 := by omega
  have hend : instant * 60000000 ≤ last := by omega
  have haligned : instant * 60000000 % 60000000 = 0 := Nat.mul_mod_left instant 60000000
  have hoffset := hsteady.wallMinute _ hnow.le hend
  have hshown : zone.wallMinute (instant * 60000000) = minute := by
    rw [hoffset]
    push_cast
    omega
  have hread := hsteady.instantOf _ hnow.le hend haligned
  rw [hshown] at hread hoffset
  exact ⟨_, hread, hnow, hend, haligned, hshown, hoffset⟩

/-- A zone is reconciled if it keeps its offset until five runs have come. -/
theorem reconciled_of_steady
    (hsteady : zone.Steady now last offset)
    (hmany : AtLeast 5 fun minute =>
      SearchedMinute fields zone now minute ∧ minute ≤ zone.wallMinute last) :
    Reconciled fields zone now := by
  have hread :=
    fun minute (hminute : AmongFirst 5 (SearchedMinute fields zone now) minute) =>
    hsteady.instantOf_eq hminute.1.later (hminute.le_of_atLeast hmany)
  rw [reconciled_iff_carries]
  refine ⟨fun minute hminute => ?_, fun first second hfirst hsecond hless => ?_,
    fun value hvalue => ?_⟩
  · obtain ⟨instant, hinstant, hnow, -, haligned, hshown, -⟩ := hread minute hminute
    rw [hinstant]
    exact ⟨hnow, haligned, hshown.symm ▸ hminute.1.accepted⟩
  · obtain ⟨instant, hinstant, -, -, -, -, hone⟩ := hread first hfirst
    obtain ⟨later, hlater, -, -, -, -, hother⟩ := hread second hsecond
    rw [hinstant, hlater]
    show instant < later
    omega
  · have hsearched : AtLeast 5 (SearchedMinute fields zone now) :=
      hmany.mono fun _ hminute => hminute.1
    obtain ⟨instant, rfl⟩ : ∃ instant : ℕ, instant = value := ⟨value, rfl⟩
    have hnow : now < instant := hvalue.later
    have haligned : instant % 60000000 = 0 := hvalue.aligned
    rcases Nat.lt_or_ge last instant with hafter | hlast
    · refine Or.inr ⟨hsearched, fun minute hminute => ?_⟩
      obtain ⟨earlier, hearlier, -, hend, -⟩ := hread minute hminute
      exact hearlier ▸ hend.trans_lt hafter
    · have hoffset := hsteady.wallMinute instant hnow.le hlast
      have hstart := hsteady.wallMinute now le_rfl hsteady.now_le
      -- A later minute of the clock is shown at a later instant.
      have hforward : ∀ minute, AmongFirst 5 (SearchedMinute fields zone now) minute →
          minute < zone.wallMinute instant → zone.instantOf minute < instant := by
        intro minute hminute hless
        obtain ⟨earlier, hearlier, -, -, -, -, hother⟩ := hread minute hminute
        rw [hearlier]
        show earlier < instant
        omega
      by_cases hfirst : AmongFirst 5 (SearchedMinute fields zone now)
          (zone.wallMinute instant)
      · exact Or.inl ⟨_, hfirst, hsteady.instantOf instant hnow.le hlast haligned⟩
      · refine Or.inr ⟨hsearched, fun minute hminute => hforward minute hminute ?_⟩
        by_contra hlate
        have hwithin := hminute.1.within
        have hlater : zone.wallMinute now < zone.wallMinute instant := by omega
        have hminute' : SearchedMinute fields zone now (zone.wallMinute instant) :=
          ⟨hlater, by omega, hvalue.accepted⟩
        exact hlate (hminute.lt_of_not hminute' hfirst)

end

/-! ## The upcoming runs -/

/-- The runs that are read out are the next matching instants exactly if the zone carries
the matching minutes of its clock to them. -/
theorem exactRuns_iff
    (calendar : Calendar) (fields : CronFields) (zone : ZoneInfo) (now : Time) :
    ExactRuns calendar fields zone now
        ((matchingMinutes fields (366 * 24 * 60) 5 (zone.wallMinute now + 1)).map
          fun minute => calendar.isoformat (zone.instantOf minute)) ↔
      Reconciled fields zone now := by
  have hfirst := searchedMinutes_isFirst fields zone now
  rw [reconciled_iff_carries, ← hfirst.map_iff, ExactRuns]
  constructor
  · rintro ⟨instants, htexts, hinstants⟩
    have hsame : (matchingMinutes fields (366 * 24 * 60) 5
        (zone.wallMinute now + 1)).map zone.instantOf = instants := by
      apply calendar.isoformat_injective.list_map
      rw [← htexts, List.map_map]
      rfl
    rwa [hsame]
  · intro hinstants
    exact ⟨_, by rw [List.map_map]; rfl, hinstants⟩

theorem cron_expansion_exact_iff
    {calendar : Calendar} {expression timezone : String} {zone : ZoneInfo}
    (hvalid : validCronExpression calendar.toPython expression = true)
    (hzone : calendar.zoneInfo timezone = some zone) (now : Time) :
    ∃ fields upcoming, ReadsFields calendar.toPython expression fields ∧
      upcomingCronRuns calendar expression timezone now = some upcoming ∧
      (ExactRuns calendar fields zone now upcoming ↔ Reconciled fields zone now) ∧
      (zone.Lawful now →
        (ExactRuns calendar fields zone now upcoming ↔
          Undisturbed fields zone now)) := by
  obtain ⟨fields, hfields⟩ := Option.isSome_iff_exists.mp hvalid
  have hreads := cronFields_eq_some_iff.mp hfields
  have hupcoming := hreads.upcoming timezone now
  rw [hzone, Option.map_some] at hupcoming
  have hiff := exactRuns_iff calendar fields zone now
  exact ⟨fields, _, hreads, hupcoming, hiff, fun hlaws =>
    hiff.trans (reconciled_iff_undisturbed hlaws)⟩

/-! ## A clock that is never changed -/

theorem sampleUtc_steady (last : Time) : sampleUtc.Steady 0 last 0 where
  now_le := Nat.zero_le last
  wallMinute := fun time _ _ => (Int.add_zero _).symm
  instantOf := by
    intro (time : ℕ) _ _ (haligned : time % 60000000 = 0)
    show ((time : ℤ) / 60000000 * 60000000).toNat = time
    omega

/-- The expression of `sample_cron_fields`. -/
def sampleFields : CronFields where
  minutes := [0, 20, 40]
  hours := [8, 13, 18]
  days := [1, 15]
  months := (List.range 12).map fun month => (month : ℤ) + 1
  weekdays := [7]

/-- The first of February was a Sunday. -/
theorem sample_cron_expansion :
    ∃ upcoming,
      upcomingCronRuns sampleCronCalendar "*/20 8-18/5 1,15 * 7" "UTC" 0 = some upcoming ∧
      ExactRuns sampleCronCalendar sampleFields sampleUtc 0 upcoming := by
  have hreads : ReadsFields sampleCronCalendar.toPython "*/20 8-18/5 1,15 * 7"
      sampleFields :=
    ⟨"*/20", "8-18/5", "1,15", "*", "7", by decide, by decide, by decide, by decide,
      by decide, by decide⟩
  have hmany : AtLeast 5 fun minute => SearchedMinute sampleFields sampleUtc 0 minute ∧
      minute ≤ sampleUtc.wallMinute (45440 * 60000000) := by
    refine ⟨{45120, 45140, 45160, 45420, 45440}, by decide, fun minute hminute => ?_⟩
    simp only [Finset.mem_insert, Finset.mem_singleton] at hminute
    rcases hminute with rfl | rfl | rfl | rfl | rfl <;>
      exact ⟨⟨by decide, by decide, by decide⟩, by decide⟩
  obtain ⟨fields, upcoming, hfields, hupcoming, hexact, -⟩ :=
    @cron_expansion_exact_iff sampleCronCalendar "*/20 8-18/5 1,15 * 7" "UTC" sampleUtc
      (by decide) rfl 0
  obtain rfl := Option.some.inj ((cronFields_eq_some_iff.mpr hfields).symm.trans
    (cronFields_eq_some_iff.mpr hreads))
  exact ⟨upcoming, hupcoming,
    hexact.mpr (reconciled_of_steady (sampleUtc_steady _) hmany)⟩

/-! ## An hour which the clock skips -/

/-- New York in the spring of 2024, where two o'clock of the tenth of March is three. -/
def sampleNewYork : ZoneInfo where
  wallMinute := fun time =>
    if time / 60000000 < 28500900 then time / 60000000 - 300 else time / 60000000 - 240
  instantOf := fun minute =>
    ((if minute < 28500660 then minute + 300 else minute + 240) * 60000000).toNat

def sampleNewYorkCalendar : Calendar :=
  { sampleCronCalendar with
    zoneInfo :=
      fun name => if name = "America/New_York" then some sampleNewYork else none }

/-- From half past two for five minutes. -/
def sampleSkippedFields : CronFields where
  minutes := [30, 31, 32, 33, 34]
  hours := [2]
  days := (List.range 31).map fun day => (day : ℤ) + 1
  months := (List.range 12).map fun month => (month : ℤ) + 1
  weekdays := (List.range 8).map fun day => (day : ℤ)

theorem sampleSkippedFields_reads :
    ReadsFields sampleNewYorkCalendar.toPython "30-34 2 * * *" sampleSkippedFields :=
  ⟨"30-34", "2", "*", "*", "*", by decide, by decide, by decide, by decide, by decide,
    by decide⟩

/-- A minute before the hour is skipped, half past two is the next match of the clock. -/
theorem sampleSkipped_amongFirst :
    AmongFirst 5 (SearchedMinute sampleSkippedFields sampleNewYork (28500899 * 60000000))
      28500630 := by
  refine ⟨⟨by decide, by decide, by decide⟩, fun before hbefore => ?_⟩
  have hnone : before = ∅ := by
    apply Finset.eq_empty_of_forall_notMem
    intro other hother
    obtain ⟨⟨hlater, -, haccepted⟩, hless⟩ := hbefore other hother
    have hstart : sampleNewYork.wallMinute (28500899 * 60000000) = 28500599 := by decide
    have hminute : other % 60 ∈ sampleSkippedFields.minutes :=
      (of_decide_eq_true haccepted).1
    simp only [sampleSkippedFields, List.mem_cons, List.not_mem_nil, or_false] at hminute
    omega
  rw [hnone]
  decide

/-- At that instant the clock shows half past three. -/
theorem sampleSkipped_not_reconciled :
    ¬Reconciled sampleSkippedFields sampleNewYork (28500899 * 60000000) := by
  intro hreconciled
  exact absurd (hreconciled.skipped _ sampleSkipped_amongFirst (by decide)) (by decide)

theorem cron_expansion_skipped :
    validCronExpression sampleNewYorkCalendar.toPython "30-34 2 * * *" = true ∧
      sampleNewYorkCalendar.zoneInfo "America/New_York" = some sampleNewYork ∧
      ∃ fields upcoming,
        ReadsFields sampleNewYorkCalendar.toPython "30-34 2 * * *" fields ∧
        upcomingCronRuns sampleNewYorkCalendar "30-34 2 * * *" "America/New_York"
          (28500899 * 60000000) = some upcoming ∧
        ¬ExactRuns sampleNewYorkCalendar fields sampleNewYork (28500899 * 60000000)
          upcoming := by
  have hupcoming :=
    sampleSkippedFields_reads.upcoming "America/New_York" (28500899 * 60000000)
  refine ⟨by decide, rfl, sampleSkippedFields, _, sampleSkippedFields_reads, hupcoming,
    ?_⟩
  rw [exactRuns_iff]
  exact sampleSkipped_not_reconciled

end ManagedAgents
