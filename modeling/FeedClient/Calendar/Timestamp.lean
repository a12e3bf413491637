import FeedClient.Calendar.Instant
import FeedClient.Text.Blank
import FeedClient.Text.Numeral

/-!
# Timestamps

The written form of an instant is that of RFC 3339 in universal time, with as
many fraction digits as it needs in groups of three. Reading is lenient: white
space around the components, components of one digit, signed years of any
length, any offset.
-/
namespace FeedClient.Calendar

/-- A year in four places; outside of 0 to 9999 it has a sign. -/
def yearText (year : Int) : List Char :=
  if 0 ≤ year ∧ year ≤ 9999 then Numeral.padded '0' 4 year.natAbs
  else (if year < 0 then '-' else '+') :: Numeral.padded '0' 4 year.natAbs

def twoDigits (n : Nat) : List Char := Numeral.padded '0' 2 n

/-- A point and three, six or nine digits; nothing for a whole second. -/
def fractionText (nanos : Nat) : List Char :=
  if nanos = 0 then []
  else if nanos % 1000000 = 0 then '.' :: Numeral.padded '0' 3 (nanos / 1000000)
  else if nanos % 1000 = 0 then '.' :: Numeral.padded '0' 6 (nanos / 1000)
  else '.' :: Numeral.padded '0' 9 nanos

def dateText (d : Date) : List Char :=
  yearText d.year ++ '-' :: twoDigits d.month ++ '-' :: twoDigits d.day

def clockText (t : Instant) : List Char :=
  twoDigits t.hour ++ ':' :: twoDigits t.minute ++ ':' :: twoDigits t.second

namespace Instant

def stem (t : Instant) : List Char :=
  dateText t.date ++ 'T' :: clockText t ++ fractionText t.fraction

/-- The written form with a numeric offset. -/
def withOffset (t : Instant) : String := String.ofList (t.stem ++ ['+', '0', '0', ':', '0', '0'])

/-- The written form that ends in the letter Z. -/
def zulu (t : Instant) : String := String.ofList (t.stem ++ ['Z'])

end Instant

namespace Timestamp

/-- One to `width` digits and what follows them. -/
def number? (width : Nat) (cs : List Char) : Option (Nat × List Char) :=
  let ds := (cs.take width).takeWhile Numeral.isDigit
  if ds.isEmpty then none else some (Numeral.value 0 ds, cs.drop ds.length)

/-- A year of up to four digits, or one with a sign and any number of them. -/
def year? : List Char → Option (Int × List Char)
  | '-' :: cs => (number? cs.length cs).map fun (n, rest) => (-(n : Int), rest)
  | '+' :: cs => (number? cs.length cs).map fun (n, rest) => ((n : Int), rest)
  | cs => (number? 4 cs).map fun (n, rest) => ((n : Int), rest)

/-- A given character behind white space. -/
def expect? (c : Char) (cs : List Char) : Option (List Char) :=
  match Text.trimStart cs with
  | d :: rest => if d = c then some rest else none
  | [] => none

def component? (cs : List Char) : Option (Nat × List Char) := number? 2 (Text.trimStart cs)

def date? (cs : List Char) : Option (Date × List Char) := do
  let (year, cs) ← year? (Text.trimStart cs)
  let (month, cs) ← component? (← expect? '-' cs)
  let (day, cs) ← component? (← expect? '-' cs)
  let date : Date := ⟨year, month, day⟩
  if date.isValid then some (date, cs) else none

/-- One letter T or a space stands between date and time. -/
def separator? : List Char → Option (List Char)
  | 'T' :: cs => some cs
  | 't' :: cs => some cs
  | ' ' :: cs => some cs
  | _ => none

/-- Nine digits of a fraction count, and those behind them are passed over. -/
def fraction? : List Char → Option (Nat × List Char)
  | '.' :: cs =>
    let ds := (cs.take 9).takeWhile Numeral.isDigit
    if ds.isEmpty then none
    else some (Numeral.value 0 ds * Nat.pow 10 (9 - ds.length), cs.dropWhile Numeral.isDigit)
  | cs => some (0, cs)

/-- Second of the day and nanoseconds; a sixtieth second is the leap part of the one before. -/
def clock? (cs : List Char) : Option (Nat × Nat × List Char) := do
  let (hour, cs) ← component? cs
  let (minute, cs) ← component? (← expect? ':' cs)
  let (second, cs) ← component? (← expect? ':' cs)
  let (nanos, cs) ← fraction? cs
  if hour ≤ 23 ∧ minute ≤ 59 ∧ second ≤ 60 then
    let stem := hour * 3600 + minute * 60
    if second = 60 then some (stem + 59, billion + nanos, cs) else some (stem + second, nanos, cs)
  else none

/-- Two digits of hours, any colons and white space, two digits of minutes. -/
def hoursMinutes? : List Char → Option (Nat × List Char)
  | a :: b :: cs => do
    let hours := (← Numeral.digit? a) * 10 + (← Numeral.digit? b)
    match cs.dropWhile fun c => c = ':' || Text.isSpace c with
    | c :: d :: rest =>
      let minutes := (← Numeral.digit? c) * 10 + (← Numeral.digit? d)
      if hours ≤ 23 ∧ minutes ≤ 59 then some (hours * 60 + minutes, rest) else none
    | _ => none
  | _ => none

/-- Minutes east of universal time. -/
def offset? (cs : List Char) : Option (Int × List Char) :=
  match cs with
  | 'Z' :: rest => some (0, rest)
  | 'z' :: rest => some (0, rest)
  | '+' :: rest => (hoursMinutes? rest).map fun (m, r) => ((m : Int), r)
  | '-' :: rest => (hoursMinutes? rest).map fun (m, r) => (-(m : Int), r)
  | '\u2212' :: rest => (hoursMinutes? rest).map fun (m, r) => (-(m : Int), r)
  | u :: t :: c :: rest =>
    if u.toUpper = 'U' ∧ t.toUpper = 'T' ∧ c.toUpper = 'C' then some (0, rest) else none
  | _ => none

/-- The instant that a text names. -/
def read? (s : String) : Option Instant := do
  let (date, cs) ← date? s.toList
  let (second, nanos, cs) ← clock? (← separator? cs)
  let (offset, cs) ← offset? (Text.trimStart cs)
  if cs.all Text.isSpace then
    let instant : Instant := ⟨date.toDays * 86400 + second - offset * 60, nanos⟩
    if instant.date.isValid then some instant else none
  else none

end Timestamp

end FeedClient.Calendar
