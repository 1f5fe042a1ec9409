import ManagedAgents.Cron
import ManagedAgents.DeploymentStatuses
import ManagedAgents.Library.Fallible
import ManagedAgents.Library.Progressions
import ManagedAgents.Library.Segments

/-!
# The numbers of a cron field

A field is a list of items.  Each spells a range and a step, and the field has
the numbers of their progressions; every other text is refused.
-/

namespace ManagedAgents

open Fallible Progressions Segments

/-! ## Items -/

/-- The part of an item before its step. -/
inductive CronRange
  | every
  | single (value : ℤ)
  | between (first last : ℤ)

/-- An item, whose step is positive. -/
structure CronItem where
  range : CronRange
  step : ℤ
  step_pos : 0 < step

def CronRange.start (minimum : ℤ) : CronRange → ℤ
  | .every => minimum
  | .single value => value
  | .between first _ => first

def CronRange.stop (maximum : ℤ) : CronRange → ℤ
  | .every => maximum
  | .single value => value
  | .between _ last => last

/-- The numbers of the item, whose steps count from its own start. -/
def CronItem.values (minimum maximum : ℤ) (item : CronItem) : Set ℤ :=
  progression (item.range.start minimum) (item.range.stop maximum) item.step

/-- The range is not reversed and lies within the bounds. -/
structure CronItem.Within (minimum maximum : ℤ) (item : CronItem) : Prop where
  minimum_le : minimum ≤ item.range.start minimum
  le_maximum : item.range.stop maximum ≤ maximum
  start_le_stop : item.range.start minimum ≤ item.range.stop maximum

/-! ## Spellings -/

inductive CronRange.Spelled (py : Python) : String → CronRange → Prop
  | every : CronRange.Spelled py "*" .every
  | single {text : String} {value : ℤ} (hstar : text ≠ "*")
      (hdash : '-' ∉ text.toList) (hvalue : py.intOfStr text = some value) :
      CronRange.Spelled py text (.single value)
  | between {rawStart rawEnd : String} {first last : ℤ}
      (hdash : '-' ∉ rawStart.toList) (hfirst : py.intOfStr rawStart = some first)
      (hlast : py.intOfStr rawEnd = some last) :
      CronRange.Spelled py (rawStart ++ "-" ++ rawEnd) (.between first last)

/-- The text of an item without the spaces around it. -/
inductive CronItem.SpelledBare (py : Python) : String → CronItem → Prop
  | plain {text : String} {range : CronRange} (hblank : text ≠ "")
      (hslash : '/' ∉ text.toList) (hrange : range.Spelled py text) :
      CronItem.SpelledBare py text ⟨range, 1, Int.one_pos⟩
  | stepped {body rawStep : String} {range : CronRange} {step : ℤ} (hpos : 0 < step)
      (hslash : '/' ∉ body.toList) (hstep : py.intOfStr rawStep = some step)
      (hrange : range.Spelled py body) :
      CronItem.SpelledBare py (body ++ "/" ++ rawStep) ⟨range, step, hpos⟩

def CronItem.Spelled (py : Python) (text : String) (item : CronItem) : Prop :=
  item.SpelledBare py (strip text)

/-! ## Splitting at a mark -/

theorem splitOnce_eq_none_iff {mark : Char} {text : String} :
    splitOnce mark text = none ↔ mark ∉ text.toList := by
  unfold splitOnce
  split
  next hmark => simp [hmark]
  next hmark => simp [hmark]

theorem splitOnce_eq_some_iff
    {mark : Char} {text body rest : String} :
    splitOnce mark text = some (body, rest) ↔
      text = body ++ String.ofList [mark] ++ rest ∧ mark ∉ body.toList := by
  have htext : text = body ++ String.ofList [mark] ++ rest ↔
      text.toList = body.toList ++ mark :: rest.toList := by
    rw [← String.toList_inj]
    simp
  rw [htext, eq_append_cons_iff]
  unfold splitOnce
  constructor
  · intro hsplit
    split at hsplit
    next hmark =>
      obtain ⟨hbody, hrest⟩ := Prod.mk.inj (Option.some.inj hsplit)
      rw [← hbody, ← hrest, String.toList_ofList, String.toList_ofList]
      exact ⟨hmark, rfl, rfl⟩
    next => cases hsplit
  · rintro ⟨hmark, hbody, hrest⟩
    rw [if_pos hmark, hbody, hrest, String.ofList_toList, String.ofList_toList]

/-! ## Reading an item -/

/-- The part of an item before its step, and the step. -/
def readStep (py : Python) (item : String) : Option (String × ℤ) :=
  match splitOnce '/' item with
  | some (item, rawStep) =>
      (py.intOfStr rawStep).bind fun step =>
        if step ≤ 0 then none else some (item, step)
  | none => some (item, 1)

def readRange (py : Python) (minimum maximum : ℤ) (item : String) : Option (ℤ × ℤ) :=
  if item = "*" then some (minimum, maximum)
  else
    match splitOnce '-' item with
    | some (rawStart, rawEnd) =>
        (py.intOfStr rawStart).bind fun start =>
          (py.intOfStr rawEnd).map fun stop => (start, stop)
    | none => (py.intOfStr item).map fun value => (value, value)

section

variable {py : Python} {minimum maximum : ℤ} {text : String}

/-- What follows the range is done in each of its cases. -/
theorem readRange_bind (check : ℤ × ℤ → Option (List ℤ)) :
    (readRange py minimum maximum text).bind check =
      (if text = "*" then some (minimum, maximum) >>= check
      else
        match splitOnce '-' text with
        | some (rawStart, rawEnd) => do
            let start ← py.intOfStr rawStart
            let stop ← py.intOfStr rawEnd
            some (start, stop) >>= check
        | none => do
            let value ← py.intOfStr text
            some (value, value) >>= check) := by
  unfold readRange
  split
  · rfl
  · rcases splitOnce '-' text with _ | ⟨rawStart, rawEnd⟩
    · cases py.intOfStr text <;> rfl
    · simp only
      cases py.intOfStr rawStart with
      | none => rfl
      | some start => cases py.intOfStr rawEnd <;> rfl

/-- The reader of items in its parts. -/
theorem cronItemValues_eq :
    cronItemValues py minimum maximum text =
      if strip text = "" then none
      else
        (readStep py (strip text)).bind fun item =>
          (readRange py minimum maximum item.1).bind fun bounds =>
            if bounds.1 < minimum ∨ bounds.2 > maximum ∨ bounds.1 > bounds.2 then none
            else some (stepRange bounds.1 bounds.2 item.2) := by
  unfold cronItemValues readStep
  simp only [readRange_bind]
  split
  · rfl
  · rcases splitOnce '/' (strip text) with _ | ⟨body, rawStep⟩
    · rfl
    · simp only
      cases py.intOfStr rawStep with
      | none => rfl
      | some step =>
          simp only [Option.bind_eq_bind, Option.bind_some]
          split <;> rfl

theorem readStep_eq_some_iff {body : String} {step : ℤ} :
    readStep py text = some (body, step) ↔
      ('/' ∉ text.toList ∧ text = body ∧ 1 = step) ∨
        ∃ rawStep, text = body ++ "/" ++ rawStep ∧ '/' ∉ body.toList ∧
          py.intOfStr rawStep = some step ∧ 0 < step := by
  unfold readStep
  constructor
  · intro hread
    split at hread
    next item rawStep hsplit =>
      obtain ⟨htext, hslash⟩ := splitOnce_eq_some_iff.mp hsplit
      obtain ⟨number, hnumber, hread⟩ := Option.bind_eq_some_iff.mp hread
      split at hread
      next => cases hread
      next hpos =>
        obtain ⟨rfl, rfl⟩ := Prod.mk.inj (Option.some.inj hread)
        exact Or.inr ⟨rawStep, htext, hslash, hnumber, not_le.mp hpos⟩
    next hsplit =>
      obtain ⟨hbody, hstep⟩ := Prod.mk.inj (Option.some.inj hread)
      exact Or.inl ⟨splitOnce_eq_none_iff.mp hsplit, hbody, hstep⟩
  · rintro (⟨hslash, rfl, rfl⟩ | ⟨rawStep, rfl, hslash, hnumber, hpos⟩)
    · rw [splitOnce_eq_none_iff.mpr hslash]
    · have hsplit : splitOnce '/' (body ++ "/" ++ rawStep) = some (body, rawStep) :=
        splitOnce_eq_some_iff.mpr ⟨rfl, hslash⟩
      simp only [hsplit, hnumber, Option.bind_some]
      rw [if_neg (not_le.mpr hpos)]

/-- What is spelled, by the cases of `_cron_field_values`. -/
theorem CronRange.spelled_iff {range : CronRange} :
    range.Spelled py text ↔
      if text = "*" then range = .every
      else
        match splitOnce '-' text with
        | some (rawStart, rawEnd) =>
            ∃ first last, py.intOfStr rawStart = some first ∧
              py.intOfStr rawEnd = some last ∧ range = .between first last
        | none => ∃ value, py.intOfStr text = some value ∧ range = .single value := by
  constructor
  · intro hspelled
    cases hspelled with
    | every => rfl
    | single hstar hdash hvalue =>
        rw [if_neg hstar, splitOnce_eq_none_iff.mpr hdash]
        exact ⟨_, hvalue, rfl⟩
    | @between rawStart rawEnd first last hdash hfirst hlast =>
        have hsplit :
            splitOnce '-' (rawStart ++ "-" ++ rawEnd) = some (rawStart, rawEnd) :=
          splitOnce_eq_some_iff.mpr ⟨rfl, hdash⟩
        have hstar : rawStart ++ "-" ++ rawEnd ≠ "*" := by
          intro hstar
          rw [hstar] at hsplit
          cases hsplit
        rw [if_neg hstar, hsplit]
        exact ⟨first, last, hfirst, hlast, rfl⟩
  · intro hcases
    split at hcases
    next hstar =>
      subst hstar hcases
      exact .every
    next hstar =>
      split at hcases
      next rawStart rawEnd hsplit =>
        obtain ⟨rfl, hdash⟩ := splitOnce_eq_some_iff.mp hsplit
        obtain ⟨first, last, hfirst, hlast, rfl⟩ := hcases
        exact .between hdash hfirst hlast
      next hsplit =>
        obtain ⟨value, hvalue, rfl⟩ := hcases
        exact .single hstar (splitOnce_eq_none_iff.mp hsplit) hvalue

theorem CronRange.Spelled.unique
    {first second : CronRange} (hfirst : first.Spelled py text)
    (hsecond : second.Spelled py text) : first = second := by
  rw [CronRange.spelled_iff] at hfirst hsecond
  split at hfirst
  next hstar =>
    rw [if_pos hstar] at hsecond
    rw [hfirst, hsecond]
  next hstar =>
    rw [if_neg hstar] at hsecond
    split at hfirst
    next rawStart rawEnd hsplit =>
      simp only [hsplit] at hsecond
      obtain ⟨start, stop, hstart, hstop, rfl⟩ := hfirst
      obtain ⟨start', stop', hstart', hstop', rfl⟩ := hsecond
      obtain rfl := Option.some.inj (hstart.symm.trans hstart')
      obtain rfl := Option.some.inj (hstop.symm.trans hstop')
      rfl
    next hsplit =>
      simp only [hsplit] at hsecond
      obtain ⟨value, hvalue, rfl⟩ := hfirst
      obtain ⟨value', hvalue', rfl⟩ := hsecond
      obtain rfl := Option.some.inj (hvalue.symm.trans hvalue')
      rfl

theorem readRange_eq_some_iff {start stop : ℤ} :
    readRange py minimum maximum text = some (start, stop) ↔
      ∃ range : CronRange, range.Spelled py text ∧
        range.start minimum = start ∧ range.stop maximum = stop := by
  simp only [CronRange.spelled_iff]
  unfold readRange
  split
  next => simp [CronRange.start, CronRange.stop]
  next =>
    split
    next rawStart rawEnd hsplit =>
      simp only [Option.bind_eq_some_iff, Option.map_eq_some_iff, Prod.mk.injEq]
      constructor
      · rintro ⟨first, hfirst, last, hlast, rfl, rfl⟩
        exact ⟨.between first last, ⟨first, last, hfirst, hlast, rfl⟩, rfl, rfl⟩
      · rintro ⟨range, ⟨first, last, hfirst, hlast, rfl⟩, rfl, rfl⟩
        exact ⟨first, hfirst, last, hlast, rfl, rfl⟩
    next hsplit =>
      simp only [Option.map_eq_some_iff, Prod.mk.injEq]
      constructor
      · rintro ⟨value, hvalue, rfl, rfl⟩
        exact ⟨.single value, ⟨value, hvalue, rfl⟩, rfl, rfl⟩
      · rintro ⟨range, ⟨value, hvalue, rfl⟩, rfl, rfl⟩
        exact ⟨value, hvalue, rfl, rfl⟩

/-- The spelling of an item in the parts that are read. -/
theorem CronItem.spelled_iff {item : CronItem} :
    item.Spelled py text ↔
      strip text ≠ "" ∧ ∃ body, readStep py (strip text) = some (body, item.step) ∧
        item.range.Spelled py body := by
  unfold CronItem.Spelled
  generalize strip text = bare
  constructor
  · intro hspelled
    cases hspelled with
    | plain hblank hslash hrange =>
        exact ⟨hblank, bare, readStep_eq_some_iff.mpr (Or.inl ⟨hslash, rfl, rfl⟩), hrange⟩
    | @stepped body rawStep range step hpos hslash hstep hrange =>
        refine ⟨?_, body, readStep_eq_some_iff.mpr
          (Or.inr ⟨rawStep, rfl, hslash, hstep, hpos⟩), hrange⟩
        intro hblank
        have hnone := congrArg String.toList hblank
        simp at hnone
  · rintro ⟨hblank, body, hstep, hrange⟩
    obtain ⟨range, step, hpos⟩ := item
    rcases readStep_eq_some_iff.mp hstep with ⟨hslash, rfl, rfl⟩ | ⟨rawStep, rfl, hslash,
      hnumber, -⟩
    · exact .plain hblank hslash hrange
    · exact .stepped hpos hslash hnumber hrange

/-- An item is read exactly if it spells something within the bounds. -/
theorem cronItemValues_eq_some_iff {values : List ℤ} :
    cronItemValues py minimum maximum text = some values ↔
      ∃ item : CronItem, (item.Spelled py text ∧ item.Within minimum maximum) ∧
        stepRange (item.range.start minimum) (item.range.stop maximum) item.step =
          values := by
  rw [cronItemValues_eq]
  constructor
  · intro hread
    split at hread
    next => cases hread
    next hblank =>
      obtain ⟨⟨body, step⟩, hstep, hread⟩ := Option.bind_eq_some_iff.mp hread
      obtain ⟨⟨start, stop⟩, hrange, hread⟩ := Option.bind_eq_some_iff.mp hread
      obtain ⟨range, hspelled, rfl, rfl⟩ := readRange_eq_some_iff.mp hrange
      have hpos : 0 < step := by
        rcases readStep_eq_some_iff.mp hstep with ⟨-, -, rfl⟩ | ⟨-, -, -, -, hpos⟩
        · exact Int.one_pos
        · exact hpos
      split at hread
      next => cases hread
      next hbounds =>
        simp only [not_or, not_lt] at hbounds
        exact ⟨⟨range, step, hpos⟩,
          ⟨CronItem.spelled_iff.mpr ⟨hblank, body, hstep, hspelled⟩, hbounds.1,
            hbounds.2.1, hbounds.2.2⟩, Option.some.inj hread⟩
  · rintro ⟨item, ⟨hspelled, hwithin⟩, rfl⟩
    obtain ⟨hblank, body, hstep, hrange⟩ := CronItem.spelled_iff.mp hspelled
    have hread : readRange py minimum maximum body =
        some (item.range.start minimum, item.range.stop maximum) :=
      readRange_eq_some_iff.mpr ⟨item.range, hrange, rfl, rfl⟩
    rw [if_neg hblank, hstep, Option.bind_some, hread, Option.bind_some, if_neg]
    simp only [not_or, not_lt]
    exact ⟨hwithin.minimum_le, hwithin.le_maximum, hwithin.start_le_stop⟩

theorem CronItem.Spelled.unique
    {first second : CronItem} (hfirst : first.Spelled py text)
    (hsecond : second.Spelled py text) : first = second := by
  obtain ⟨-, body, hstep, hrange⟩ := CronItem.spelled_iff.mp hfirst
  obtain ⟨-, body', hstep', hrange'⟩ := CronItem.spelled_iff.mp hsecond
  obtain ⟨rfl, hsame⟩ := Prod.mk.inj (Option.some.inj (hstep.symm.trans hstep'))
  have hranges := hrange.unique hrange'
  cases first
  cases second
  simp_all

/-! ## Fields -/

theorem mem_stepRange
    {start stop step value : ℤ} (hstep : 0 < step) :
    value ∈ stepRange start stop step ↔ value ∈ progression start stop step := by
  rw [mem_progression_iff hstep]
  simp [stepRange]

/-- A field is read exactly if all of its items spell something within the bounds. -/
theorem cronFieldValues_eq_some_iff {values : List ℤ} :
    cronFieldValues py minimum maximum text = some values ↔
      ∃ items : List CronItem,
        List.Forall₂ (fun part item => item.Spelled py part ∧ item.Within minimum maximum)
          ((text.toList.splitOn ',').map String.ofList) items ∧
        (items.map fun item => stepRange (item.range.start minimum)
          (item.range.stop maximum) item.step).flatten = values := by
  unfold cronFieldValues
  simp only [Option.map_eq_some_iff,
    mapM_eq_some_iff fun _ _ => cronItemValues_eq_some_iff]
  constructor
  · rintro ⟨_, ⟨items, hitems, rfl⟩, rfl⟩
    exact ⟨items, hitems, rfl⟩
  · rintro ⟨items, hitems, rfl⟩
    exact ⟨_, ⟨items, hitems, rfl⟩, rfl⟩

theorem CronItem.Within.bounds
    {item : CronItem} (hwithin : item.Within minimum maximum) {value : ℤ}
    (hvalue : value ∈ item.values minimum maximum) : minimum ≤ value ∧
      value ≤ maximum := by
  obtain ⟨hstart, hstop⟩ := bounds_of_mem_progression item.step_pos hvalue
  exact ⟨hwithin.minimum_le.trans hstart, hstop.trans hwithin.le_maximum⟩

theorem CronItem.Within.start_mem
    {item : CronItem} (hwithin : item.Within minimum maximum) :
    item.range.start minimum ∈ item.values minimum maximum :=
  start_mem_progression hwithin.start_le_stop

/-- What a field that was read consists of. -/
structure FieldNumbers (py : Python) (minimum maximum : ℤ) (part : String)
    (values : List ℤ) : Prop where
  nonempty : values ≠ []
  bounded : ∀ value ∈ values, minimum ≤ value ∧ value ≤ maximum
  union : ∃ items : List CronItem,
    (∀ others, List.Forall₂ (CronItem.Spelled py)
      ((part.toList.splitOn ',').map String.ofList) others ↔ others = items) ∧
    ∀ value, value ∈ values ↔ ∃ item ∈ items, value ∈ item.values minimum maximum

theorem fieldNumbers_of_eq_some
    {values : List ℤ} (hread : cronFieldValues py minimum maximum text = some values) :
    FieldNumbers py minimum maximum text values := by
  obtain ⟨items, hitems, rfl⟩ := cronFieldValues_eq_some_iff.mp hread
  have hspelled : List.Forall₂ (CronItem.Spelled py)
      ((text.toList.splitOn ',').map String.ofList) items :=
    hitems.imp fun _ _ hitem => hitem.1
  have hflipped : List.Forall₂
      (fun item part => CronItem.Within minimum maximum item ∧ item.Spelled py part) items
      ((text.toList.splitOn ',').map String.ofList) :=
    List.Forall₂.flip (hitems.imp fun _ _ hitem => ⟨hitem.2, hitem.1⟩)
  have hwithin := ((List.forall₂_and_left _ _).mp hflipped).1
  have hmem : ∀ value, value ∈ (items.map fun item => stepRange
      (item.range.start minimum) (item.range.stop maximum) item.step).flatten ↔
        ∃ item ∈ items, value ∈ item.values minimum maximum := by
    intro value
    simp only [List.mem_flatten, List.mem_map, exists_exists_and_eq_and, CronItem.values]
    exact exists_congr fun item => and_congr_right fun _ => mem_stepRange item.step_pos
  refine ⟨?_, ?_, items, ?_, hmem⟩
  · have hparts : items ≠ [] := by
      rintro rfl
      have hlength := hspelled.length_eq
      rw [List.length_map, List.length_nil, List.length_eq_zero_iff] at hlength
      exact List.splitOn_ne_nil ',' _ hlength
    obtain ⟨first, hfirst⟩ := List.exists_mem_of_ne_nil items hparts
    exact List.ne_nil_of_mem
      ((hmem _).mpr ⟨first, hfirst, (hwithin first hfirst).start_mem⟩)
  · intro value hvalue
    obtain ⟨item, hitem, hvalue⟩ := (hmem value).mp hvalue
    exact (hwithin item hitem).bounds hvalue
  · have hunique : Relator.RightUnique (CronItem.Spelled py) :=
      fun _ _ _ hfirst hsecond => hfirst.unique hsecond
    intro others
    constructor
    · intro hothers
      exact List.right_unique_forall₂' hunique hothers hspelled
    · rintro rfl
      exact hspelled

end

/-! ## Expressions -/

/-- The fields of an expression, each read within the bounds of its kind. -/
def ReadsFields (py : Python) (expression : String) (fields : CronFields) : Prop :=
  ∃ minutes hours days months weekdays,
    splitWhitespace expression = [minutes, hours, days, months, weekdays] ∧
    cronFieldValues py 0 59 minutes = some fields.minutes ∧
    cronFieldValues py 0 23 hours = some fields.hours ∧
    cronFieldValues py 1 31 days = some fields.days ∧
    cronFieldValues py 1 12 months = some fields.months ∧
    cronFieldValues py 0 7 weekdays = some fields.weekdays

theorem cronFields_eq_some_iff
    {py : Python} {expression : String} {fields : CronFields} :
    cronFields py (splitWhitespace expression) = some fields ↔
      ReadsFields py expression fields := by
  unfold cronFields ReadsFields
  constructor
  · intro hfields
    split at hfields
    next minutes hours days months weekdays hparts =>
      simp only [Option.bind_eq_bind, Option.bind_eq_some_iff, Option.pure_def,
        Option.some.injEq] at hfields
      obtain ⟨first, hfirst, second, hsecond, third, hthird, fourth, hfourth, fifth,
        hfifth, rfl⟩ := hfields
      exact ⟨minutes, hours, days, months, weekdays, hparts, hfirst, hsecond, hthird,
        hfourth, hfifth⟩
    next => cases hfields
  · rintro ⟨minutes, hours, days, months, weekdays, hparts, hfirst, hsecond, hthird,
      hfourth, hfifth⟩
    rw [hparts]
    simp [hfirst, hsecond, hthird, hfourth, hfifth]

/-- The next runs of an expression whose fields can be read. -/
theorem ReadsFields.upcoming
    {calendar : Calendar} {expression : String} {fields : CronFields}
    (hfields : ReadsFields calendar.toPython expression fields)
    (timezone : String) (utcnow : Time) :
    upcomingCronRuns calendar expression timezone utcnow =
      (calendar.zoneInfo timezone).map fun zone =>
        (matchingMinutes fields (366 * 24 * 60) 5 (zone.wallMinute utcnow + 1)).map
          fun minute => calendar.isoformat (zone.instantOf minute) := by
  have hread := cronFields_eq_some_iff.mpr hfields
  obtain ⟨minutes, hours, days, months, weekdays, hparts, -⟩ := hfields
  have hlength : (splitWhitespace expression).length = 5 := by rw [hparts]; rfl
  unfold upcomingCronRuns
  simp only [hlength, hread, ne_eq, not_true_eq_false, if_false]
  cases calendar.zoneInfo timezone <;> rfl

theorem cron_fields_sound :
    (∀ (py : Python) (minimum maximum : ℤ) (part : String),
      cronFieldValues py minimum maximum part = none ∨
        ∃ values, cronFieldValues py minimum maximum part = some values ∧
          FieldNumbers py minimum maximum part values) ∧
    ∀ (calendar : Calendar) (expression : String),
      validCronExpression calendar.toPython expression = true →
        ∃ fields, ReadsFields calendar.toPython expression fields ∧
          ∀ timezone utcnow, upcomingCronRuns calendar expression timezone utcnow =
            (calendar.zoneInfo timezone).map fun zone =>
              (matchingMinutes fields (366 * 24 * 60) 5 (zone.wallMinute utcnow + 1)).map
                fun minute => calendar.isoformat (zone.instantOf minute) := by
  constructor
  · intro py minimum maximum part
    cases hread : cronFieldValues py minimum maximum part with
    | none => exact Or.inl rfl
    | some values => exact Or.inr ⟨values, rfl, fieldNumbers_of_eq_some hread⟩
  · intro calendar expression hvalid
    obtain ⟨fields, hfields⟩ := Option.isSome_iff_exists.mp hvalid
    have hreads := cronFields_eq_some_iff.mp hfields
    exact ⟨fields, hreads, hreads.upcoming⟩

/-! ## A sample expression -/

/-- A reader of ASCII digits. -/
def sampleDigits (text : String) : Option ℤ :=
  if text ≠ "" ∧ text.toList.all Char.isDigit then
    some (Nat.ofDigitChars 10 text.toList 0)
  else none

def sampleCronCalendar : Calendar := { sampleCalendar with intOfStr := sampleDigits }

theorem sample_cron_fields :
    ∃ fields, ReadsFields sampleCronCalendar.toPython "*/20 8-18/5 1,15 * 7" fields ∧
      ∀ timezone utcnow, upcomingCronRuns sampleCronCalendar "*/20 8-18/5 1,15 * 7"
          timezone utcnow =
        (sampleCronCalendar.zoneInfo timezone).map fun zone =>
          (matchingMinutes fields (366 * 24 * 60) 5 (zone.wallMinute utcnow + 1)).map
            fun minute => sampleCronCalendar.isoformat (zone.instantOf minute) :=
  cron_fields_sound.2 sampleCronCalendar "*/20 8-18/5 1,15 * 7" (by decide)

example :
    cronFieldValues sampleCronCalendar.toPython 0 59 "5-20/5, 50" =
      some [5, 10, 15, 20, 50] := by
  decide

end ManagedAgents
