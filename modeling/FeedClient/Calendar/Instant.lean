import FeedClient.Calendar.Date

/-!
# Instants

An instant is a count of seconds since 1970 in universal time and a count of
nanoseconds. A thousand million nanoseconds and more lie in a leap second, which
follows the last second of a minute and is written as its sixtieth.
-/
namespace FeedClient.Calendar

structure Instant where
  seconds : Int
  nanos : Nat
  deriving DecidableEq, Repr, Inhabited

def billion : Nat := 1000000000

namespace Instant

def date (t : Instant) : Date := Date.ofDays (t.seconds.fdiv 86400)

def secondOfDay (t : Instant) : Nat := (t.seconds.fmod 86400).toNat

def hour (t : Instant) : Nat := t.secondOfDay / 3600

def minute (t : Instant) : Nat := t.secondOfDay / 60 % 60

/-- The second of the minute as written, sixty in a leap second. -/
def second (t : Instant) : Nat := t.secondOfDay % 60 + t.nanos / billion

/-- The nanoseconds behind the second. -/
def fraction (t : Instant) : Nat := t.nanos % billion

/-- The hour on a clock of twelve. -/
def hour12 (t : Instant) : Nat := if t.hour % 12 = 0 then 12 else t.hour % 12

def isAfternoon (t : Instant) : Bool := 12 ≤ t.hour

end Instant

end FeedClient.Calendar
