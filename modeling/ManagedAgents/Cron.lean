import ManagedAgents.CivilDates

/-!
# Cron schedules

The fields of a cron expression are sets of numbers.  The next runs are found
by going through the minutes of the wall clock in the time zone of the schedule
for a year.  The time zones and the parser of timestamps are the interpreter's.
-/

namespace ManagedAgents

/-- The wall clock of a time zone, in minutes since 1970-01-01T00:00. -/
structure ZoneInfo where
  /-- The reading at an instant, without its seconds. -/
  wallMinute : Time → ℤ
  /-- `astimezone(UTC)` of a reading with `fold=0`. -/
  instantOf : ℤ → Time

/-- The interpreter with its `datetime` and `zoneinfo` modules. -/
structure Calendar extends Python where
  /-- The instant of a timestamp; one without a zone is in UTC. -/
  fromisoformat : String → Option Time
  zoneInfo : String → Option ZoneInfo
  fromisoformat_isoformat : ∀ time, fromisoformat (isoformat time) = some time
  isoformat_ne_empty : ∀ time, isoformat time ≠ ""

/-! ## Fields -/

/-- `text.split()`. -/
def splitWhitespace (text : String) : List String :=
  ((text.toList.splitOnP isspace).filter (· ≠ [])).map String.ofList

/-- The two parts of `text.split(mark, 1)` if the mark occurs. -/
def splitOnce (mark : Char) (text : String) : Option (String × String) :=
  if mark ∈ text.toList then
    some (String.ofList (text.toList.takeWhile (· ≠ mark)),
      String.ofList (text.toList.dropWhile (· ≠ mark)).tail)
  else none

/-- `range(start, stop + 1, step)`. -/
def stepRange (start stop step : ℤ) : List ℤ :=
  (List.range ((stop - start) / step + 1).toNat).map fun index => start + index * step

/-- One item of a field; `none` stands for a `ValueError`. -/
def cronItemValues (py : Python) (minimum maximum : ℤ) (item : String) :
    Option (List ℤ) :=
  let item := strip item
  if item = "" then none
  else do
    let (item, step) ←
      match splitOnce '/' item with
      | some (item, rawStep) => do
          let step ← py.intOfStr rawStep
          if step ≤ 0 then none else some (item, step)
      | none => some (item, 1)
    let (start, stop) ←
      if item = "*" then some (minimum, maximum)
      else
        match splitOnce '-' item with
        | some (rawStart, rawEnd) => do
            let start ← py.intOfStr rawStart
            let stop ← py.intOfStr rawEnd
            some (start, stop)
        | none => do
            let value ← py.intOfStr item
            some (value, value)
    if start < minimum ∨ stop > maximum ∨ start > stop then none
    else some (stepRange start stop step)

def cronFieldValues (py : Python) (minimum maximum : ℤ) (part : String) :
    Option (List ℤ) :=
  (((part.toList.splitOn ',').map String.ofList).mapM
    (cronItemValues py minimum maximum)).map List.flatten

structure CronFields where
  minutes : List ℤ
  hours : List ℤ
  days : List ℤ
  months : List ℤ
  weekdays : List ℤ

def cronFields (py : Python) (parts : List String) : Option CronFields :=
  match parts with
  | [minutes, hours, days, months, weekdays] => do
      return {
        minutes := ← cronFieldValues py 0 59 minutes
        hours := ← cronFieldValues py 0 23 hours
        days := ← cronFieldValues py 1 31 days
        months := ← cronFieldValues py 1 12 months
        weekdays := ← cronFieldValues py 0 7 weekdays }
  | _ => none

def validCronExpression (py : Python) (expression : String) : Bool :=
  (cronFields py (splitWhitespace expression)).isSome

/-! ## Upcoming runs -/

def CronFields.matches (fields : CronFields) (minute : ℤ) : Bool :=
  let date := civilDate (minute / 1440)
  let cronWeekday := (weekday (minute / 1440) + 1) % 7
  minute % 60 ∈ fields.minutes ∧ minute / 60 % 24 ∈ fields.hours ∧
    date.day ∈ fields.days ∧ date.month ∈ fields.months ∧
    (cronWeekday ∈ fields.weekdays ∨ (cronWeekday = 0 ∧ 7 ∈ fields.weekdays))

/-- The first `count` matches among so many minutes. -/
def matchingMinutes (fields : CronFields) : ℕ → ℕ → ℤ → List ℤ
  | 0, _, _ => []
  | _, 0, _ => []
  | minutes + 1, count + 1, current =>
      if fields.matches current then
        current :: matchingMinutes fields minutes count (current + 1)
      else matchingMinutes fields minutes (count + 1) (current + 1)

/-- `none` stands for an exception. -/
def upcomingCronRuns (calendar : Calendar) (expression timezone : String)
    (utcnow : Time) : Option (List String) :=
  let parts := splitWhitespace expression
  if parts.length ≠ 5 then some []
  else do
    let fields ← cronFields calendar.toPython parts
    let zone ← calendar.zoneInfo timezone
    let minutes :=
      matchingMinutes fields (366 * 24 * 60) 5 (zone.wallMinute utcnow + 1)
    return minutes.map fun minute => calendar.isoformat (zone.instantOf minute)

end ManagedAgents
