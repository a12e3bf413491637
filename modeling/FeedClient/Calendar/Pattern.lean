import FeedClient.Calendar.Timestamp

/-!
# Patterns for instants

A pattern is literal text with specifiers: a percent sign, an optional padding
flag and a letter. A pattern with an unknown or cut specifier formats nothing.
-/
namespace FeedClient.Calendar

/-- What fills a number up to its width. -/
inductive Padding where
  | none
  | zero
  | space
  deriving DecidableEq, Repr

/-- One piece of a pattern. -/
inductive PatternItem where
  | literal (text : List Char)
  /-- A number with its own padding, which a flag may replace. -/
  | number (padding : Padding) (digits : Padding → Instant → List Char)
  | text (write : Instant → List Char)

namespace Pattern

def monthNames : List String :=
  ["January", "February", "March", "April", "May", "June", "July", "August", "September",
    "October", "November", "December"]

def weekdayNames : List String :=
  ["Monday", "Tuesday", "Wednesday", "Thursday", "Friday", "Saturday", "Sunday"]

def monthName (t : Instant) : List Char := (monthNames.getD (t.date.month - 1) "").toList

def weekdayName (t : Instant) : List Char := (weekdayNames.getD t.date.weekday "").toList

/-- A number of at least `width` places under a padding. -/
def wide (width n : Nat) : Padding → List Char
  | .none => Nat.toDigits 10 n
  | .zero => Numeral.padded '0' width n
  | .space => Numeral.padded ' ' width n

/-- A number in two places; what exceeds them is written as a single sign behind the digits. -/
def two (n : Nat) (p : Padding) : List Char :=
  let ones := Char.ofNat (48 + n % 10)
  if n / 10 = 0 then
    match p with
    | .none => [ones]
    | .space => [' ', ones]
    | .zero => ['0', ones]
  else [Char.ofNat (48 + n / 10), ones]

/-- A whole number, its sign counted in the width. -/
def signedWide (width : Nat) (n : Int) (p : Padding) : List Char :=
  if 0 ≤ n then wide width n.natAbs p
  else match p with
    | .none => '-' :: Nat.toDigits 10 n.natAbs
    | .zero => '-' :: Numeral.padded '0' (width - 1) n.natAbs
    | .space =>
      let ds := '-' :: Nat.toDigits 10 n.natAbs
      List.replicate (width - ds.length) ' ' ++ ds

/-- A year in four places; outside of 0 to 9999 it has a sign in front, in one place more. -/
def year (y : Int) (p : Padding) : List Char :=
  if 0 ≤ y ∧ y ≤ 9999 then wide 4 y.natAbs p
  else
    let sign := if y < 0 then '-' else '+'
    let ds := Nat.toDigits 10 y.natAbs
    match p with
    | .none => sign :: ds
    | .zero => sign :: Numeral.padded '0' 4 y.natAbs
    | .space => List.replicate (4 - ds.length) ' ' ++ sign :: ds

/-- The century as a byte. -/
def century (t : Instant) : Nat := ((t.date.year.fdiv 100) % 256).toNat

def yearOfCentury (y : Int) : Nat := (y % 100).toNat

def halfDay (t : Instant) : List Char := if t.isAfternoon then ['P', 'M'] else ['A', 'M']

def zero (digits : Padding → Instant → List Char) : PatternItem := .number .zero digits

def spaced (digits : Padding → Instant → List Char) : PatternItem := .number .space digits

def plain (digits : Padding → Instant → List Char) : PatternItem := .number .none digits

/-- Fraction digits, cut to `places`. -/
def fractionDigits (places : Nat) (t : Instant) : List Char :=
  Numeral.padded '0' places (t.fraction / Nat.pow 10 (9 - places))

/-- The pieces that a letter stands for. -/
def letter? : Char → Option (List PatternItem)
  | 'Y' => some [yearItem]
  | 'C' => some [zero fun p t => two (century t) p]
  | 'y' => some [shortYear]
  | 'm' => some [month]
  | 'd' => some [day]
  | 'e' => some [spacedDay]
  | 'H' => some [hour]
  | 'I' => some [hour12]
  | 'k' => some [spaced fun p t => two t.hour p]
  | 'l' => some [spaced fun p t => two t.hour12 p]
  | 'M' => some [minute]
  | 'S' => some [second]
  | 'f' => some [zero fun p t => wide 9 t.fraction p]
  | 's' => some [plain fun p t => signedWide 9 t.seconds p]
  | 'j' => some [zero fun p t => wide 3 t.date.ordinal p]
  | 'q' => some [plain fun _ t => Nat.toDigits 10 ((t.date.month + 2) / 3)]
  | 'u' => some [plain fun _ t => Nat.toDigits 10 (t.date.weekday + 1)]
  | 'w' => some [plain fun _ t => Nat.toDigits 10 ((t.date.weekday + 1) % 7)]
  | 'U' => some [zero fun p t => two (t.date.weekFrom 6) p]
  | 'W' => some [zero fun p t => two (t.date.weekFrom 0) p]
  | 'G' => some [zero fun p t => year t.date.isoWeek.1 p]
  | 'g' => some [zero fun p t => two (yearOfCentury t.date.isoWeek.1) p]
  | 'V' => some [zero fun p t => two t.date.isoWeek.2 p]
  | 'A' => some [.text weekdayName]
  | 'a' => some [weekday]
  | 'B' => some [.text monthName]
  | 'b' => some [shortMonth]
  | 'h' => some [shortMonth]
  | 'p' => some [.text halfDay]
  | 'P' => some [.text fun t => (halfDay t).map Char.toLower]
  | 'Z' => some [.literal ['U', 'T', 'C']]
  | 'z' => some [.text fun _ => ['+', '0', '0', '0', '0']]
  | '+' => some [.text fun t => t.withOffset.toList]
  | 'D' => some slashDate
  | 'x' => some slashDate
  | 'F' => some [yearItem, .literal ['-'], month, .literal ['-'], day]
  | 'R' => some [hour, .literal [':'], minute]
  | 'T' => some clock
  | 'X' => some clock
  | 'r' => some [hour12, .literal [':'], minute, .literal [':'], second, .literal [' '], .text halfDay]
  | 'v' => some [spacedDay, .literal ['-'], shortMonth, .literal ['-'], yearItem]
  | 'c' => some ([weekday, .literal [' '], shortMonth, .literal [' '], spacedDay, .literal [' ']] ++
      clock ++ [.literal [' '], yearItem])
  | 'n' => some [.literal ['\n']]
  | 't' => some [.literal ['\t']]
  | '%' => some [.literal ['%']]
  | _ => none
where
  yearItem : PatternItem := zero fun p t => year t.date.year p
  shortYear : PatternItem := zero fun p t => two (yearOfCentury t.date.year) p
  month : PatternItem := zero fun p t => two t.date.month p
  day : PatternItem := zero fun p t => two t.date.day p
  spacedDay : PatternItem := spaced fun p t => two t.date.day p
  hour : PatternItem := zero fun p t => two t.hour p
  hour12 : PatternItem := zero fun p t => two t.hour12 p
  minute : PatternItem := zero fun p t => two t.minute p
  second : PatternItem := zero fun p t => two t.second p
  weekday : PatternItem := .text fun t => (weekdayName t).take 3
  shortMonth : PatternItem := .text fun t => (monthName t).take 3
  clock : List PatternItem := [hour, .literal [':'], minute, .literal [':'], second]
  slashDate : List PatternItem := [month, .literal ['/'], day, .literal ['/'], shortYear]

/-- A flag replaces the padding of a letter that stands for a single number, and no other's. -/
def flagged? (flag : Padding) (c : Char) : Option (List PatternItem) :=
  match letter? c with
  | some [.number _ digits] => some [.number flag digits]
  | _ => none

/-- The specifier behind a percent sign, and what follows it. -/
def specifier? : List Char → Option (List PatternItem × List Char)
  | ':' :: ':' :: ':' :: 'z' :: cs => some ([.text fun _ => ['+', '0', '0']], cs)
  | ':' :: ':' :: 'z' :: cs => some ([.text fun _ => "+00:00:00".toList], cs)
  | ':' :: 'z' :: cs => some ([.text fun _ => "+00:00".toList], cs)
  | '.' :: '3' :: 'f' :: cs => some ([.text fun t => '.' :: fractionDigits 3 t], cs)
  | '.' :: '6' :: 'f' :: cs => some ([.text fun t => '.' :: fractionDigits 6 t], cs)
  | '.' :: '9' :: 'f' :: cs => some ([.text fun t => '.' :: fractionDigits 9 t], cs)
  | '.' :: 'f' :: cs => some ([.text fun t => fractionText t.fraction], cs)
  | '3' :: 'f' :: cs => some ([.text (fractionDigits 3)], cs)
  | '6' :: 'f' :: cs => some ([.text (fractionDigits 6)], cs)
  | '9' :: 'f' :: cs => some ([.text (fractionDigits 9)], cs)
  | '-' :: c :: cs => (flagged? .none c).map (·, cs)
  | '0' :: c :: cs => (flagged? .zero c).map (·, cs)
  | '_' :: c :: cs => (flagged? .space c).map (·, cs)
  | c :: cs => (letter? c).map (·, cs)
  | [] => none

/-- The pieces of a pattern; `fuel` is at least its length. -/
def itemsWithin : Nat → List Char → Option (List PatternItem)
  | _, [] => some []
  | 0, _ :: _ => none
  | fuel + 1, '%' :: cs =>
    match specifier? cs with
    | none => none
    | some (items, rest) => (itemsWithin fuel rest).map (items ++ ·)
  | fuel + 1, c :: cs => (itemsWithin fuel cs).map (.literal [c] :: ·)

end Pattern

def PatternItem.write (t : Instant) : PatternItem → List Char
  | .literal cs => cs
  | .number p digits => digits p t
  | .text f => f t

/-- The text of an instant under a pattern, if every specifier of the pattern is known. -/
def Instant.format? (t : Instant) (pattern : String) : Option String :=
  (Pattern.itemsWithin pattern.toList.length pattern.toList).map fun items =>
    String.ofList (items.flatMap (PatternItem.write t))

end FeedClient.Calendar
