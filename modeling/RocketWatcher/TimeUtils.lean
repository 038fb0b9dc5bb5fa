import RocketWatcher.Domain

/-!
# Display times

The wall-clock texts of `time_utils.cpp`. A time point is split into a civil date and a
time of day of the proleptic Gregorian calendar, as `year_month_day` does it, and printed
with zero-padded fields. The time zone database is not part of the program : a `TimeZone` is
what it answers for one zone.
-/

namespace RocketWatcher

structure CivilTime where
  year : Int
  month : Int
  day : Int
  hour : Int
  minute : Int
  second : Int
  deriving DecidableEq, Repr

/-- Year, month and day of a count of days since 1970-01-01. Eras of 400 years start on
March 1st, so that the leap day comes last in its year. -/
def civilFromDays (days : Int) : Int × Int × Int :=
  let shifted := days + 719468
  let era := shifted / 146097
  let dayOfEra := shifted % 146097
  let yearOfEra := (dayOfEra - dayOfEra / 1460 + dayOfEra / 36524 - dayOfEra / 146096) / 365
  let dayOfYear := dayOfEra - (365 * yearOfEra + yearOfEra / 4 - yearOfEra / 100)
  let shiftedMonth := (5 * dayOfYear + 2) / 153
  let day := dayOfYear - (153 * shiftedMonth + 2) / 5 + 1
  let month := if shiftedMonth < 10 then shiftedMonth + 3 else shiftedMonth - 9
  let year := yearOfEra + era * 400
  (if month ≤ 2 then year + 1 else year, month, day)

/-- Local seconds since 1970-01-01 00:00:00. Division rounds towards minus infinity, as
`floor<days>` does. -/
def splitLocal (localSeconds : Int) : CivilTime :=
  let timeOfDay := localSeconds % 86400
  let ymd := civilFromDays (localSeconds / 86400)
  { year := ymd.1
    month := ymd.2.1
    day := ymd.2.2
    hour := timeOfDay / 3600
    minute := timeOfDay % 3600 / 60
    second := timeOfDay % 60 }

/-- What the time zone database answers for one zone. -/
structure TimeZone where
  toLocal : Int → Int
  localAbbrev : Int → String

def splitInZone (time : Int) (zone : TimeZone) : CivilTime :=
  splitLocal (zone.toLocal time)

/-- `%0<width>d` of `printf` : the sign counts towards the width. -/
def zeroPadded (width : Nat) (n : Int) : String :=
  let digits := toString n.natAbs
  let sign := if n < 0 then "-" else ""
  sign ++ String.ofList (List.replicate (width - sign.length - digits.length) '0') ++ digits

def CivilTime.date (c : CivilTime) : String :=
  zeroPadded 4 c.year ++ "-" ++ zeroPadded 2 c.month ++ "-" ++ zeroPadded 2 c.day

/-- `2026-06-09 11:45 PDT`. -/
def formatDisplay (time : Option Int) (zone : TimeZone) : String :=
  match time with
  | none => "unknown time"
  | some time =>
    let c := splitInZone time zone
    c.date ++ " " ++ zeroPadded 2 c.hour ++ ":" ++ zeroPadded 2 c.minute ++ " " ++
      zone.localAbbrev time

/-- `2026-06-09 around 11:00 PDT`. -/
def formatDisplayHour (time : Int) (zone : TimeZone) : String :=
  let c := splitInZone time zone
  c.date ++ " around " ++ zeroPadded 2 c.hour ++ ":00 " ++ zone.localAbbrev time

/-- Pacific daylight time. -/
def pacificDaylight : TimeZone := ⟨fun time => time - 25200, fun _ => "PDT"⟩

example : formatDisplay (some 1781030700) pacificDaylight = "2026-06-09 11:45 PDT" := by decide

end RocketWatcher
