/-!
# Moments and timestamps

A moment is a time of a calendar day, with or without an offset from universal time. Its timestamp
is written in universal time with three digits of a second. A moment whose day in universal time
lies outside the years 1 to 9999 has none.

A moment without an offset is local time, and local time is universal time. Reading it compares the
local clock with that of the day before, so on the first day of the calendar it cannot be read.

`Moment.ofParts` makes moments of numbers, and refuses the first number that is out of its range.
-/

namespace DesignTokens

/-- A day of the Gregorian calendar, extended to all years. -/
structure Date where
  year : Nat
  month : Nat
  day : Nat
  deriving DecidableEq

namespace Date

/-- The year has a twenty-ninth of February. -/
def isLeapYear (year : Nat) : Bool :=
  year % 4 == 0 && (year % 100 != 0 || year % 400 == 0)

/-- The number of days of a month. -/
def daysInMonth (year month : Nat) : Nat :=
  if month = 2 then
    if isLeapYear year then 29 else 28
  else if month = 4 ∨ month = 6 ∨ month = 9 ∨ month = 11 then 30
  else 31

/-- The first year of the calendar. -/
def firstYear : Nat := 1

/-- The last year of the calendar. -/
def lastYear : Nat := 9999

/-- The date is a day of the calendar. -/
def Valid (d : Date) : Prop :=
  firstYear ≤ d.year ∧ d.year ≤ lastYear ∧ 1 ≤ d.month ∧ d.month ≤ 12 ∧
    1 ≤ d.day ∧ d.day ≤ daysInMonth d.year d.month

instance (d : Date) : Decidable d.Valid :=
  inferInstanceAs (Decidable (_ ∧ _))

/-- The day after, when the calendar has one. -/
def next? (d : Date) : Option Date :=
  if d.day < daysInMonth d.year d.month then some { d with day := d.day + 1 }
  else if d.month < 12 then some ⟨d.year, d.month + 1, 1⟩
  else if d.year < lastYear then some ⟨d.year + 1, 1, 1⟩
  else none

/-- The day before, when the calendar has one. -/
def previous? (d : Date) : Option Date :=
  if 1 < d.day then some { d with day := d.day - 1 }
  else if 1 < d.month then
    some ⟨d.year, d.month - 1, daysInMonth d.year (d.month - 1)⟩
  else if firstYear < d.year then some ⟨d.year - 1, 12, 31⟩
  else none

/-- The day reached by a number of steps. -/
def stepBy (step : Date → Option Date) : Nat → Date → Option Date
  | 0, d => some d
  | count + 1, d => (step d).bind (stepBy step count)

/-- The day that lies a number of days later. -/
def addDays? (d : Date) (days : Int) : Option Date :=
  if days < 0 then stepBy previous? days.natAbs d else stepBy next? days.natAbs d

end Date

/-- The time of a day. -/
structure Moment where
  date : Date
  hour : Nat
  minute : Nat
  second : Nat
  microsecond : Nat
  /-- The offset in microseconds east of universal time, and nothing for local time. -/
  offset : Option Int
  deriving DecidableEq

/-- The number of minutes of a day. -/
def minutesPerDay : Int := 1440

/-- The number of microseconds of a minute. -/
def microsecondsPerMinute : Int := 60000000

/-- The number of microseconds of a day. -/
def microsecondsPerDay : Int := 86400000000

/-- Why numbers are no moment, or why a moment has no timestamp. -/
inductive CalendarFault where
  /-- The day in universal time lies outside the calendar. -/
  | outside
  /-- The calendar does not have this year. -/
  | year (number : Int)
  | month
  | day
  | hour
  | minute
  | second
  | microsecond
  /-- The offset is a day or more. -/
  | offset (minutes : Int)
  deriving DecidableEq

namespace CalendarFault

/-- A number of minutes as a span of days and seconds. -/
def spanText (minutes : Int) : String :=
  let seconds := minutes % minutesPerDay * 60
  "datetime.timedelta(days=" ++ toString (minutes / minutesPerDay) ++
    (if seconds = 0 then "" else ", seconds=" ++ toString seconds) ++ ")"

/-- What the fault says. -/
def message : CalendarFault → String
  | .outside => "date value out of range"
  | .year number => "year " ++ toString number ++ " is out of range"
  | .month => "month must be in 1..12"
  | .day => "day is out of range for month"
  | .hour => "hour must be in 0..23"
  | .minute => "minute must be in 0..59"
  | .second => "second must be in 0..59"
  | .microsecond => "microsecond must be in 0..999999"
  | .offset minutes =>
    "offset must be a timedelta strictly between -timedelta(hours=24) and timedelta(hours=24), " ++
      "not " ++ spanText minutes ++ "."

end CalendarFault

namespace Moment

/-- The moment is a time of a day of the calendar, and any offset is less than a day. -/
def Valid (t : Moment) : Prop :=
  t.date.Valid ∧ t.hour < 24 ∧ t.minute < 60 ∧ t.second < 60 ∧ t.microsecond < 1000000 ∧
    -microsecondsPerDay < t.offset.getD 0 ∧ t.offset.getD 0 < microsecondsPerDay

instance (t : Moment) : Decidable t.Valid :=
  inferInstanceAs (Decidable (_ ∧ _))

/-- A number as a part of a moment, with the fault that it lies outside its range. -/
def part (low high : Nat) (number : Int) (fault : CalendarFault) : Except CalendarFault Nat :=
  if low ≤ number ∧ number ≤ high then .ok number.toNat else .error fault

/-- The moment that numbers give, with an offset in minutes. The offset is looked at first, then the
parts in order. -/
def ofParts (year month day hour minute second microsecond : Int) (offset : Option Int) :
    Except CalendarFault Moment := do
  if let some minutes := offset then
    if minutesPerDay ≤ minutes.natAbs then throw (.offset minutes)
  let year ← part Date.firstYear Date.lastYear year (.year year)
  let month ← part 1 12 month .month
  let day ← part 1 (Date.daysInMonth year month) day .day
  let hour ← part 0 23 hour .hour
  let minute ← part 0 59 minute .minute
  let second ← part 0 59 second .second
  let microsecond ← part 0 999999 microsecond .microsecond
  return ⟨⟨year, month, day⟩, hour, minute, second, microsecond,
    offset.map (· * microsecondsPerMinute)⟩

/-- The microseconds since the day began. -/
def sinceMidnight (t : Moment) : Int :=
  ((t.hour * 60 + t.minute) * 60 + t.second) * 1000000 + t.microsecond

/-- The moment in universal time that lies a number of microseconds after the start of a day. -/
def afterMidnight? (date : Date) (microseconds : Int) : Option Moment := do
  let date ← date.addDays? (microseconds / microsecondsPerDay)
  let rest := (microseconds % microsecondsPerDay).toNat
  some
    { date
      hour := rest / 3600000000
      minute := rest / 60000000 % 60
      second := rest / 1000000 % 60
      microsecond := rest % 1000000
      offset := some 0 }

/-- The same instant in universal time, for a moment at an offset. -/
def shift? (t : Moment) (offset : Int) : Option Moment :=
  afterMidnight? t.date (t.sinceMidnight - offset)

/-- The same instant in universal time. -/
def utc (t : Moment) : Except CalendarFault Moment :=
  match t.offset, t.date.previous? with
  | some offset, _ => (t.shift? offset).elim (.error .outside) .ok
  | none, some _ => .ok { t with offset := some 0 }
  | none, none => .error (.year 0)

/-- The moment in universal time that lies a number of microseconds after the start of 1970. -/
def ofUnixTime? (microseconds : Int) : Option Moment :=
  afterMidnight? ⟨1970, 1, 1⟩ microseconds

/-- A number with at least so many digits. -/
def padded (width n : Nat) : String :=
  let digits := Nat.toDigits 10 n
  String.ofList (List.replicate (width - digits.length) '0' ++ digits)

/-- The date and the time of a moment as they are written in a timestamp. The year has no leading
zeros. -/
def written (t : Moment) : String :=
  toString t.date.year ++ "-" ++ padded 2 t.date.month ++ "-" ++ padded 2 t.date.day ++ "T" ++
    padded 2 t.hour ++ ":" ++ padded 2 t.minute ++ ":" ++ padded 2 t.second ++ "." ++
    padded 3 (t.microsecond / 1000) ++ "Z"

/-- The timestamp of a moment. -/
def timestamp (t : Moment) : Except CalendarFault String :=
  t.utc.map written

end Moment

end DesignTokens
