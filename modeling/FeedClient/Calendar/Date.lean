/-!
# Dates of the Gregorian calendar

A day is counted from 1970-01-01, with years before the first one numbered zero
and below. Weeks are counted from Sundays, from Mondays, and as ISO weeks.
-/
namespace FeedClient.Calendar

structure Date where
  year : Int
  month : Nat
  day : Nat
  deriving DecidableEq, Repr

def isLeap (year : Int) : Bool := year % 4 = 0 && (year % 100 ≠ 0 || year % 400 = 0)

def daysInMonth (year : Int) (month : Nat) : Nat :=
  if month = 2 then (if isLeap year then 29 else 28)
  else if month = 4 ∨ month = 6 ∨ month = 9 ∨ month = 11 then 30
  else 31

/-- Days before the first of a month in its year. -/
def daysBeforeMonth (year : Int) (month : Nat) : Nat :=
  ((List.range (month - 1)).map fun m => daysInMonth year (m + 1)).foldl (· + ·) 0

/-- Days from 1970-01-01 to the first of January of a year. -/
def daysBeforeYear (year : Int) : Int :=
  let y := year - 1
  365 * (year - 1970) + (y.fdiv 4 - y.fdiv 100 + y.fdiv 400) - 477

namespace Date

/-- Whether month and day exist, and the year is one of those that instants reach. -/
def isValid (d : Date) : Bool :=
  -262143 ≤ d.year && d.year ≤ 262142 && 1 ≤ d.month && d.month ≤ 12 && 1 ≤ d.day &&
  d.day ≤ daysInMonth d.year d.month

/-- The day of the year, from one. -/
def ordinal (d : Date) : Nat := daysBeforeMonth d.year d.month + d.day

/-- Days since 1970-01-01. -/
def toDays (d : Date) : Int := daysBeforeYear d.year + d.ordinal - 1

/-- The month and day at a day of the year, counted from zero. -/
def monthDay (year : Int) : Nat → Nat → Nat → Nat × Nat
  | 0, month, rest => (month, rest + 1)
  | fuel + 1, month, rest =>
    let length := daysInMonth year month
    if rest < length then (month, rest + 1) else monthDay year fuel (month + 1) (rest - length)

/-- The date at a count of days since 1970-01-01. -/
def ofDays (days : Int) : Date :=
  let estimate := 1970 + (days * 400).fdiv 146097
  let year :=
    if days < daysBeforeYear estimate then estimate - 1
    else if daysBeforeYear (estimate + 1) ≤ days then estimate + 1
    else estimate
  let (month, day) := monthDay year 11 1 (days - daysBeforeYear year).toNat
  ⟨year, month, day⟩

/-- Days since Monday. -/
def weekday (d : Date) : Nat := ((d.toDays + 3) % 7).toNat

/-- The week of the year, if weeks begin `first` days after Monday and the days before the first
such day are week zero. -/
def weekFrom (d : Date) (first : Nat) : Nat :=
  (d.ordinal + 6 - (d.weekday + 7 - first) % 7) / 7

def yearLength (year : Int) : Nat := if isLeap year then 366 else 365

/-- The ISO week and the year it belongs to: that of its Thursday. -/
def isoWeek (d : Date) : Int × Nat :=
  let thursday : Int := (d.ordinal : Int) + 3 - d.weekday
  if thursday < 1 then (d.year - 1, ((thursday + yearLength (d.year - 1) - 1) / 7).toNat + 1)
  else if (yearLength d.year : Int) < thursday then (d.year + 1, 1)
  else (d.year, ((thursday - 1) / 7).toNat + 1)

end Date

end FeedClient.Calendar
